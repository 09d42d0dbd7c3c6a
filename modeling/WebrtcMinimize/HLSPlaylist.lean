import WebrtcMinimize.Json

/-!
# HLS playlists

`sourceHLSParsePlaylist` and `sourceHLSEpoch.playlist` on the bytes of a
playlist. The parser knows the lines of one fixed encoder profile and refuses
every other; the epoch checks that the sequence numbers are its own, and
marks the beginning of its timeline in what is published.

`lineReferences`, `lineSegments` and `lineSequence` are what a player reads
off a line. What is published refers to nothing but the objects the parser
found, and shows the window that the epoch computed (`playlist_shows`).

The answer of `strconv.ParseFloat` on a duration is a parameter.
-/

namespace WebrtcMinimize

namespace Packager

open Checks List

/-! ## Text -/

def trimSuffix (suffix text : List Nat) : List Nat :=
  if suffix <:+ text then text.take (text.length - suffix.length) else text

/-- The lines of a text whose last line may be terminated. -/
def playlistLines (data : List Nat) : List (List Nat) :=
  (trimSuffix [10] data).splitOn 10

/-- `strconv.ParseUint` of decimal digits. -/
def parseDigits (ds : List Nat) : Nat :=
  ds.foldl (fun n d => 10 * n + (d - 48)) 0

/-- `^[0-9]{1,12}$` -/
def sourceHLSNumber (value : List Nat) : Bool := spanOK digitByte 1 12 value

/-- The number of a segment, as text. -/
def segmentDigits (name : List Nat) : List Nat :=
  trimSuffix (utf8 ".m4s") ((stripTag? (utf8 "segment_") name).getD name)

/-- `^segment_[0-9]{1,12}\.m4s$` -/
def sourceHLSSegment (name : List Nat) : Bool :=
  (stripTag? (utf8 "segment_") name).any fun body =>
    decide (utf8 ".m4s" <:+ body) && sourceHLSNumber (trimSuffix (utf8 ".m4s") body)

/-- `segment_%09d.m4s` -/
def segmentName (n : Nat) : List Nat :=
  utf8 "segment_" ++ replicate (9 - (Json.digits n).length) 48 ++ Json.digits n ++ utf8 ".m4s"

/-! ## The parser -/

structure SourceHLSWindow where
  first : Nat
  last : Nat
deriving DecidableEq

structure SourceHLSPlaylist where
  data : List Nat
  media : List (List Nat)
  window : SourceHLSWindow
deriving DecidableEq

/-- What the parser has seen so far. -/
structure PlaylistScan where
  media : List (List Nat)
  seen : List (List Nat)
  durationPending : Bool
  maps : Nat

/-- The tags with a number, each at most once. -/
def numberTags : List (List Nat) :=
  [utf8 "#EXT-X-VERSION", utf8 "#EXT-X-TARGETDURATION", utf8 "#EXT-X-MEDIA-SEQUENCE"]

def mapLine (init : List Nat) : List Nat :=
  utf8 "#EXT-X-MAP:URI=\"" ++ init ++ utf8 "\""

/-- The alphabet of dates. -/
def dateByte (b : Nat) : Bool := (utf8 "0123456789T:.-+Z").contains b

def scanLine (durationOK : List Nat → Bool) (init : List Nat) (p : PlaylistScan)
    (line : List Nat) : Option PlaylistScan :=
  if line = utf8 "#EXTM3U" ∨ line = utf8 "#EXT-X-INDEPENDENT-SEGMENTS"
      ∨ line = utf8 "#EXT-X-ENDLIST" then
    some p
  else
    match numberTags.findSome? fun tag => (stripTag? (tag ++ utf8 ":") line).map (tag, ·) with
    | some (tag, value) =>
        if tag ∈ p.seen ∨ sourceHLSNumber value = false then none
        else some { p with seen := tag :: p.seen }
    | none =>
        if line = mapLine init then
          some { p with maps := p.maps + 1 }
        else
          match stripTag? (utf8 "#EXTINF:") line with
          | some value =>
              if durationOK (trimSuffix (utf8 ",") value) = false ∨ ¬utf8 "," <:+ line
                  ∨ p.durationPending then none
              else some { p with durationPending := true }
          | none =>
              match stripTag? (utf8 "#EXT-X-PROGRAM-DATE-TIME:") line with
              | some value =>
                  if value.length < 20 ∨ value.length > 40 ∨ value.all dateByte = false then none
                  else some p
              | none =>
                  if sourceHLSSegment line = false ∨ p.durationPending = false ∨ line ∈ p.seen
                      ∨ p.media.length ≥ 8 then none
                  else
                    some { p with
                      seen := line :: p.seen
                      durationPending := false
                      media := p.media ++ [line] }

/-- The objects of a playlist, the initialisation first. -/
def sourceHLSParsePlaylist (durationOK : List Nat → Bool) (data init : List Nat) :
    Option (List (List Nat)) :=
  if data.length < 8 ∨ data.length > 65536 ∨ ¬utf8 "#EXTM3U\n" <+: data ∨ 0 ∈ data ∨ 13 ∈ data
      ∨ (playlistLines data).length > 64 then
    none
  else
    match (playlistLines data).foldlM (scanLine durationOK init) ⟨[init], [], false, 0⟩ with
    | none => none
    | some p =>
        if p.maps ≠ 1 ∨ p.durationPending ∨ p.media.length < 2
            ∨ utf8 "#EXT-X-MEDIA-SEQUENCE" ∉ p.seen ∨ utf8 "#EXT-X-TARGETDURATION" ∉ p.seen then
          none
        else
          some p.media

/-! ## Epochs -/

def sourceHLSEpochLimit : Nat := 128

def sourceHLSEpochSpan : Nat := 1000000

def epochStart (e : Nat) : Nat := e * sourceHLSEpochSpan

/-- The media sequence of the lines, when it is the epoch's. -/
def mediaSequence (e : Nat) (lines : List (List Nat)) : Option Nat :=
  lines.foldlM (fun sequence line =>
    match stripTag? (utf8 "#EXT-X-MEDIA-SEQUENCE:") line with
    | none => some sequence
    | some value =>
        let n := parseDigits value
        if n < epochStart e ∨ n ≥ epochStart e + sourceHLSEpochSpan then none else some n) 0

/-- The segments are numbered from the media sequence on. -/
def segmentsOK (e sequence : Nat) (files : List (List Nat)) : Bool :=
  files.zipIdx.all fun (file, i) =>
    let n := parseDigits (segmentDigits file)
    n = sequence + i ∧ n < epochStart e + sourceHLSEpochSpan ∧ file = segmentName n

/-- What stands before the map of a later timeline: its place in the order,
and at its beginning the break itself. -/
def discontinuity (e sequence : Nat) : List (List Nat) :=
  let first := sequence = epochStart e
  (utf8 "#EXT-X-DISCONTINUITY-SEQUENCE:" ++ Json.digits (if first then e - 1 else e))
    :: if first then [utf8 "#EXT-X-DISCONTINUITY"] else []

def epochLines (e sequence : Nat) (lines : List (List Nat)) : List (List Nat) :=
  lines.flatMap fun line =>
    if utf8 "#EXT-X-MAP:" <+: line then discontinuity e sequence ++ [line] else [line]

def unlines (lines : List (List Nat)) : List Nat := lines.flatMap fun line => line ++ [10]

/-- `sourceHLSEpoch.playlist` -/
def epochPlaylist (durationOK : List Nat → Bool) (e : Nat) (data init : List Nat) :
    Option SourceHLSPlaylist :=
  if e ≥ sourceHLSEpochLimit then
    none
  else
    match sourceHLSParsePlaylist durationOK data init with
    | none => none
    | some media =>
        match mediaSequence e (playlistLines data) with
        | none => none
        | some sequence =>
            let window : SourceHLSWindow := ⟨sequence, sequence + (media.length - 2)⟩
            if segmentsOK e sequence media.tail = false then
              none
            else if e = 0 then
              some ⟨data, media, window⟩
            else
              let out := unlines (epochLines e sequence (playlistLines data))
              if out.length > 65536 then none else some ⟨out, media, window⟩

/-! ## What a player reads -/

/-- The objects a line refers to. -/
def lineReferences (line : List Nat) : List (List Nat) :=
  match stripTag? (utf8 "#EXT-X-MAP:URI=\"") line with
  | some rest => [trimSuffix (utf8 "\"") rest]
  | none => if line = [] ∨ line.head? = some 35 then [] else [line]

def lineSegments (line : List Nat) : List (List Nat) :=
  if line = [] ∨ line.head? = some 35 then [] else [line]

def lineSequence (line : List Nat) : List Nat :=
  match stripTag? (utf8 "#EXT-X-MEDIA-SEQUENCE:") line with
  | some value => [parseDigits value]
  | none => []

def references (data : List Nat) : List (List Nat) := (data.splitOn 10).flatMap lineReferences

/-- The numbers of the first and the last segment shown. -/
def playlistWindow (data : List Nat) : Option SourceHLSWindow :=
  match (data.splitOn 10).flatMap lineSequence with
  | [sequence] => some ⟨sequence, sequence + ((data.splitOn 10).flatMap lineSegments).length - 1⟩
  | _ => none

/-! ## Lines and texts -/

theorem not_mem_of_mem_splitOn {a : Nat} : ∀ {t l : List Nat}, l ∈ t.splitOn a → a ∉ l
  | [], line, h => by
      rw [splitOn_nil, mem_singleton] at h
      rw [h]
      exact not_mem_nil
  | b :: text, line, h => by
      rw [splitOn_cons_eq_if_modifyHead] at h
      split at h
      · rcases mem_cons.mp h with rfl | h
        · exact not_mem_nil
        · exact not_mem_of_mem_splitOn h
      · next hb =>
          have htail := fun line => not_mem_of_mem_splitOn (a := a) (t := text) (l := line)
          generalize text.splitOn a = lines at h htail
          cases lines with
          | nil => cases h
          | cons l ls =>
              rcases mem_cons.mp h with rfl | h
              · intro hmem
                rcases mem_cons.mp hmem with rfl | hmem
                · simp at hb
                · exact htail l mem_cons_self hmem
              · exact htail line (mem_cons_of_mem _ h)

theorem splitOn_trimSuffix (data : List Nat) :
    data.splitOn 10 = playlistLines data ∨ data.splitOn 10 = playlistLines data ++ [[]] := by
  rw [playlistLines, trimSuffix]
  split
  · next hsuffix =>
      obtain ⟨text, rfl⟩ := hsuffix
      have htake : (text ++ [10]).take ((text ++ [10]).length - [10].length) = text := by simp
      rw [htake, splitOn_append_cons_self]
      exact .inr rfl
  · exact .inl rfl

theorem flatMap_splitOn {α : Type} {f : List Nat → List α} (hf : f [] = []) (data : List Nat) :
    (data.splitOn 10).flatMap f = (playlistLines data).flatMap f := by
  rcases splitOn_trimSuffix data with h | h
  · rw [h]
  · rw [h, flatMap_append, flatMap_singleton, hf, append_nil]

theorem splitOn_unlines : ∀ {lines : List (List Nat)}, (∀ line ∈ lines, 10 ∉ line) →
    (unlines lines).splitOn 10 = lines ++ [[]]
  | [], _ => rfl
  | line :: lines, h => by
      have htail := splitOn_unlines fun l hl => h l (mem_cons_of_mem _ hl)
      rw [unlines, flatMap_cons, append_assoc, singleton_append,
        splitOn_append_cons_self_of_not_mem (h line mem_cons_self)]
      exact congrArg (line :: ·) htail

/-- Two tags that differ somewhere. -/
def clash (tag tag' : List Nat) : Bool := (tag.zip tag').any fun (a, b) => a ≠ b

theorem stripTag?_of_clash : ∀ {tag tag' : List Nat} (body : List Nat),
    clash tag tag' = true → stripTag? tag (tag' ++ body) = none
  | [], _, _, h => by cases h
  | _ :: _, [], _, h => by cases h
  | t :: ts, t' :: ts', body, h => by
      rw [cons_append, stripTag?]
      split
      · next heq =>
          refine stripTag?_of_clash body ?_
          rw [clash, zip_cons_cons, any_cons, Bool.or_eq_true] at h
          refine h.resolve_left fun hne => ?_
          simp [heq] at hne
      · rfl

/-! ## What the lines of a playlist say -/

/-- A line that is neither the map nor a segment nor the media sequence. -/
structure Plain (line : List Nat) : Prop where
  references : lineReferences line = []
  segments : lineSegments line = []
  sequence : lineSequence line = []

theorem plain_of_tag {t : List Nat} (body : List Nat)
    (hmap : clash (utf8 "#EXT-X-MAP:URI=\"") (35 :: t) = true)
    (hsequence : clash (utf8 "#EXT-X-MEDIA-SEQUENCE:") (35 :: t) = true) :
    Plain (35 :: t ++ body) where
  references := by
    rw [lineReferences, stripTag?_of_clash body hmap]
    exact if_pos (.inr rfl)
  segments := if_pos (.inr rfl)
  sequence := by rw [lineSequence, stripTag?_of_clash body hsequence]

theorem plain_nil : Plain [] := ⟨by decide, rfl, by decide⟩

def sequenceTag : List Nat := utf8 "#EXT-X-MEDIA-SEQUENCE"

/-- How one line moves the parser. -/
structure Scanned (init : List Nat) (p p' : PlaylistScan) (line : List Nat) : Prop where
  media : p'.media = p.media ++ lineSegments line
  references : ∀ name ∈ lineReferences line, name = init ∨ name ∈ lineSegments line
  segments : ∀ name ∈ lineSegments line, sourceHLSSegment name = true
  sequence : (lineSequence line).length + (if sequenceTag ∈ p.seen then 1 else 0)
    = if sequenceTag ∈ p'.seen then 1 else 0

variable {line : List Nat}

theorem Plain.scanned (h : Plain line) (init : List Nat) (p p' : PlaylistScan)
    (hmedia : p'.media = p.media) (hseen : sequenceTag ∈ p'.seen ↔ sequenceTag ∈ p.seen) :
    Scanned init p p' line where
  media := by rw [h.segments, append_nil, hmedia]
  references := fun name hname => by simp [h.references] at hname
  segments := fun name hname => by simp [h.segments] at hname
  sequence := by simp [h.sequence, hseen]

theorem segment_line (h : sourceHLSSegment line = true) :
    ∃ body, line = utf8 "segment_" ++ body := by
  rw [sourceHLSSegment, Option.any_eq_true] at h
  obtain ⟨body, hbody, -⟩ := h
  exact ⟨body, stripTag?_eq_some hbody⟩

theorem scanned_segment (h : sourceHLSSegment line = true) (init : List Nat)
    (p p' : PlaylistScan) (hmedia : p'.media = p.media ++ [line])
    (hseen : p'.seen = line :: p.seen) : Scanned init p p' line := by
  obtain ⟨body, hline⟩ := segment_line h
  have htag : utf8 "segment_" = 115 :: utf8 "egment_" := by decide
  have hne : ¬(line = [] ∨ line.head? = some 35) := by
    rw [hline, htag]
    simp
  have hsegments : lineSegments line = [line] := if_neg hne
  have hreferences : lineReferences line = [line] := by
    rw [lineReferences]
    rw [hline, stripTag?_of_clash body (by decide), ← hline]
    exact if_neg hne
  have hsequence : lineSequence line = [] := by
    rw [lineSequence, hline, stripTag?_of_clash body (by decide)]
  have hother : sequenceTag ≠ line := by
    have hhead : sequenceTag.head? = some 35 := by decide
    intro heq
    exact hne (.inr (heq ▸ hhead))
  refine ⟨by rw [hsegments, hmedia], fun name hname => ?_, fun name hname => ?_, ?_⟩
  · rw [hreferences] at hname
    rw [hsegments]
    exact .inr hname
  · rw [hsegments, mem_singleton] at hname
    rwa [hname]
  · simp [hsequence, hseen, hother]

theorem scanned_map (init : List Nat) (p : PlaylistScan) :
    Scanned init p { p with maps := p.maps + 1 } (mapLine init) := by
  have hreferences : lineReferences (mapLine init) = [init] := by
    rw [lineReferences, mapLine, append_assoc, stripTag?_append]
    have hsuffix : utf8 "\"" <:+ init ++ utf8 "\"" := suffix_append _ _
    simp only [trimSuffix, if_pos hsuffix]
    simp
  have htag : utf8 "#EXT-X-MAP:URI=\"" = 35 :: utf8 "EXT-X-MAP:URI=\"" := by decide
  have hsegments : lineSegments (mapLine init) = [] := by
    exact if_pos (.inr rfl)
  have hsequence : lineSequence (mapLine init) = [] := by
    rw [lineSequence, mapLine, append_assoc, stripTag?_of_clash _ (by decide)]
  refine ⟨by rw [hsegments, append_nil], fun name hname => ?_, fun name hname => ?_, ?_⟩
  · rw [hreferences] at hname
    exact .inl (mem_singleton.mp hname)
  · simp [hsegments] at hname
  · simp [hsequence]

theorem scanned_sequence (init value : List Nat) (p : PlaylistScan) (hnew : sequenceTag ∉ p.seen) :
    Scanned init p { p with seen := sequenceTag :: p.seen }
      (utf8 "#EXT-X-MEDIA-SEQUENCE:" ++ value) := by
  have hsequence : lineSequence (utf8 "#EXT-X-MEDIA-SEQUENCE:" ++ value) = [parseDigits value] := by
    rw [lineSequence, stripTag?_append]
  have htag : utf8 "#EXT-X-MEDIA-SEQUENCE:" = 35 :: utf8 "EXT-X-MEDIA-SEQUENCE:" := by decide
  have hsegments : lineSegments (utf8 "#EXT-X-MEDIA-SEQUENCE:" ++ value) = [] := by
    exact if_pos (.inr rfl)
  have hreferences : lineReferences (utf8 "#EXT-X-MEDIA-SEQUENCE:" ++ value) = [] := by
    rw [lineReferences, stripTag?_of_clash _ (by decide), htag]
    exact if_pos (.inr rfl)
  refine ⟨by rw [hsegments, append_nil], fun name hname => ?_, fun name hname => ?_, ?_⟩
  · simp [hreferences] at hname
  · simp [hsegments] at hname
  · simp [hsequence, hnew]

variable {durationOK : List Nat → Bool} {init : List Nat}

theorem scanLine_scanned {p p' : PlaylistScan} (h : scanLine durationOK init p line = some p') :
    Scanned init p p' line := by
  rw [scanLine] at h
  split at h
  · next hfixed =>
      cases h
      have hplain : Plain line := by
        rcases hfixed with rfl | rfl | rfl
        · exact ⟨by decide, by decide, by decide⟩
        · exact ⟨by decide, by decide, by decide⟩
        · exact ⟨by decide, by decide, by decide⟩
      exact hplain.scanned init p p rfl Iff.rfl
  · split at h
    · next tag value htag =>
        split_ifs at h with hdenied
        cases h
        obtain ⟨t, ht, hstrip⟩ := exists_of_findSome?_eq_some htag
        obtain ⟨v, hv, heq⟩ := Option.map_eq_some_iff.mp hstrip
        obtain ⟨rfl, rfl⟩ := Prod.mk.inj heq
        have hline := stripTag?_eq_some hv
        have hnew : t ∉ p.seen := fun hin => hdenied (.inl hin)
        simp only [numberTags, mem_cons, not_mem_nil, or_false] at ht
        rcases ht with rfl | rfl | rfl
        · rw [hline]
          refine (plain_of_tag (t := utf8 "EXT-X-VERSION:") v (by decide)
            (by decide)).scanned init p _ rfl ?_
          simp [show sequenceTag ≠ utf8 "#EXT-X-VERSION" by decide]
        · rw [hline]
          refine (plain_of_tag (t := utf8 "EXT-X-TARGETDURATION:") v (by decide)
            (by decide)).scanned init p _ rfl ?_
          simp [show sequenceTag ≠ utf8 "#EXT-X-TARGETDURATION" by decide]
        · rw [hline]
          exact scanned_sequence init v p hnew
    · split at h
      · next hmap =>
          cases h
          rw [hmap]
          exact scanned_map init p
      · split at h
        · next value hvalue =>
            split_ifs at h with hdenied
            cases h
            rw [stripTag?_eq_some hvalue]
            exact (plain_of_tag (t := utf8 "EXTINF:") value (by decide)
              (by decide)).scanned init p _ rfl Iff.rfl
        · split at h
          · next value hvalue =>
              split_ifs at h with hdenied
              cases h
              rw [stripTag?_eq_some hvalue]
              exact (plain_of_tag (t := utf8 "EXT-X-PROGRAM-DATE-TIME:") value (by decide)
                (by decide)).scanned init p p rfl Iff.rfl
          · split_ifs at h with hdenied
            cases h
            have hsegment : sourceHLSSegment line = true := by
              by_contra hno
              exact hdenied (.inl (by simpa using hno))
            exact scanned_segment hsegment init p _ rfl rfl

/-- How a run of lines moves the parser: line by line. -/
structure ScannedAll (init : List Nat) (p p' : PlaylistScan) (lines : List (List Nat)) : Prop where
  media : p'.media = p.media ++ lines.flatMap lineSegments
  references : ∀ name ∈ lines.flatMap lineReferences,
    name = init ∨ name ∈ lines.flatMap lineSegments
  segments : ∀ name ∈ lines.flatMap lineSegments, sourceHLSSegment name = true
  sequence : (lines.flatMap lineSequence).length + (if sequenceTag ∈ p.seen then 1 else 0)
    = if sequenceTag ∈ p'.seen then 1 else 0

theorem scanned_lines {durationOK : List Nat → Bool} {init : List Nat} :
    ∀ {lines : List (List Nat)} {p p' : PlaylistScan},
      lines.foldlM (scanLine durationOK init) p = some p' → ScannedAll init p p' lines
  | [], p, p', h => by
      cases h
      exact ⟨by simp, by simp, by simp, by simp⟩
  | line :: lines, p, p', h => by
      obtain ⟨q, hline, hlines⟩ := Option.bind_eq_some_iff.mp h
      have hfirst := scanLine_scanned hline
      have hrest := scanned_lines hlines
      refine ⟨?_, fun name hname => ?_, fun name hname => ?_, ?_⟩
      · rw [hrest.media, hfirst.media, flatMap_cons, append_assoc]
      · rw [flatMap_cons, mem_append] at hname ⊢
        rcases hname with hname | hname
        · exact (hfirst.references name hname).imp_right .inl
        · exact (hrest.references name hname).imp_right .inr
      · rw [flatMap_cons, mem_append] at hname
        exact hname.elim (hfirst.segments name) (hrest.segments name)
      · have h1 := hfirst.sequence
        have h2 := hrest.sequence
        rw [flatMap_cons, length_append]
        omega

/-- What the parser accepts: an initialisation, then the segments of the
lines, and one media sequence. -/
structure Parsed (init : List Nat) (lines : List (List Nat)) (media : List (List Nat)) : Prop where
  objects : media = init :: lines.flatMap lineSegments
  some : lines.flatMap lineSegments ≠ []
  references : ∀ name ∈ lines.flatMap lineReferences, name ∈ media
  segments : ∀ name ∈ lines.flatMap lineSegments, sourceHLSSegment name = true
  sequence : ∃ n, lines.flatMap lineSequence = [n]

theorem sourceHLSParsePlaylist_parsed {data : List Nat}
    {media : List (List Nat)} (h : sourceHLSParsePlaylist durationOK data init = some media) :
    Parsed init (playlistLines data) media := by
  rw [sourceHLSParsePlaylist] at h
  split_ifs at h with hshape
  split at h
  · cases h
  next p hscan =>
  split_ifs at h with hdenied
  cases h
  have hall := scanned_lines hscan
  have hmedia : p.media = init :: (playlistLines data).flatMap lineSegments := hall.media
  refine ⟨hmedia, fun hnone => ?_, fun name hname => ?_, hall.segments, ?_⟩
  · refine hdenied (.inr (.inr (.inl ?_)))
    rw [hmedia, hnone]
    exact Nat.lt_succ_self 1
  · rw [hmedia]
    exact (hall.references name hname).elim (fun heq => heq ▸ mem_cons_self) (mem_cons_of_mem _)
  · have hseen : sequenceTag ∈ p.seen := by
      by_contra hno
      exact hdenied (.inr (.inr (.inr (.inl hno))))
    have hcount := hall.sequence
    rw [if_pos hseen, if_neg not_mem_nil] at hcount
    exact length_eq_one_iff.mp hcount

/-! ## What is published -/

theorem mediaSequence_eq {e : Nat} : ∀ {lines : List (List Nat)} {start sequence n : Nat},
    lines.foldlM (fun sequence line =>
      match stripTag? (utf8 "#EXT-X-MEDIA-SEQUENCE:") line with
      | none => some sequence
      | some value =>
          let n := parseDigits value
          if n < epochStart e ∨ n ≥ epochStart e + sourceHLSEpochSpan then none else some n) start
        = some sequence →
      (lines.flatMap lineSequence = [] → sequence = start)
      ∧ (lines.flatMap lineSequence = [n] →
        sequence = n ∧ epochStart e ≤ n ∧ n < epochStart e + sourceHLSEpochSpan)
  | [], start, sequence, n, h => by
      cases h
      exact ⟨fun _ => rfl, (fun hn => by cases hn)⟩
  | line :: lines, start, sequence, n, h => by
      rw [foldlM_cons] at h
      obtain ⟨q, hline, hlines⟩ := Option.bind_eq_some_iff.mp h
      obtain ⟨hnone, hone⟩ := mediaSequence_eq (n := n) hlines
      rw [flatMap_cons, lineSequence]
      split at hline
      · next htag =>
          cases hline
          rw [htag]
          exact ⟨hnone, hone⟩
      · next value htag =>
          rw [htag]
          dsimp only at hline
          split_ifs at hline with hrange
          cases hline
          refine ⟨(fun hn => by cases hn), fun hn => ?_⟩
          obtain ⟨rfl, hrest⟩ := cons.inj hn
          exact ⟨hnone hrest, by omega, by omega⟩

theorem discontinuity_plain {e sequence : Nat}
    (h : line ∈ discontinuity e sequence) : Plain line ∧ 10 ∉ line := by
  rcases mem_cons.mp h with rfl | h
  · refine ⟨plain_of_tag (t := utf8 "EXT-X-DISCONTINUITY-SEQUENCE:") _ (by decide) (by decide),
      fun hmem => ?_⟩
    rcases mem_append.mp hmem with hmem | hmem
    · exact absurd hmem (by decide)
    · exact absurd (Json.digits_digit hmem) (by decide)
  · split at h
    · obtain rfl := mem_singleton.mp h
      exact ⟨⟨by decide, by decide, by decide⟩, by decide⟩
    · cases h

/-- What a player reads off plain lines is nothing, so the break is not seen. -/
theorem flatMap_epochLines {α : Type} {f : List Nat → List α}
    (hplain : ∀ line, Plain line → f line = []) (e sequence : Nat) (lines : List (List Nat)) :
    (epochLines e sequence lines).flatMap f = lines.flatMap f := by
  rw [epochLines, flatMap_assoc]
  congr 1
  funext line
  split
  · have hnone : (discontinuity e sequence).flatMap f = [] :=
      flatMap_eq_nil_iff.mpr fun l hl => hplain l (discontinuity_plain hl).1
    rw [flatMap_append, hnone, nil_append, flatMap_singleton]
  · rw [flatMap_singleton]

theorem not_mem_epochLines {e sequence : Nat} {lines : List (List Nat)}
    (h : ∀ line ∈ lines, 10 ∉ line) : ∀ line ∈ epochLines e sequence lines, 10 ∉ line := by
  intro line hline
  obtain ⟨l, hl, hmem⟩ := mem_flatMap.mp hline
  split at hmem
  · rcases mem_append.mp hmem with hmem | hmem
    · exact (discontinuity_plain hmem).2
    · exact mem_singleton.mp hmem ▸ h l hl
  · exact mem_singleton.mp hmem ▸ h l hl

/-- The name of the segment with a number. -/
def IsSegment (name : List Nat) (n : Nat) : Prop :=
  sourceHLSSegment name = true ∧ name = segmentName n ∧ parseDigits (segmentDigits name) = n

/-- A playlist as it is published: a player finds the objects of the parser
and the window of the epoch, and the segments are numbered along it. -/
structure PlaylistOK (e : Nat) (init : List Nat) (p : SourceHLSPlaylist) : Prop where
  references : ∀ name ∈ references p.data, name ∈ p.media
  begins : init ∈ p.media
  media : ∀ name ∈ p.media, name = init
    ∨ ∃ n, IsSegment name n ∧ p.window.first ≤ n ∧ n ≤ p.window.last
  segments : ∀ n, p.window.first ≤ n → n ≤ p.window.last → segmentName n ∈ p.media
  window : playlistWindow p.data = some p.window
  epoch : epochStart e ≤ p.window.first ∧ p.window.last < epochStart e + sourceHLSEpochSpan

/-- **What a player is shown.** -/
theorem epochPlaylist_ok {e : Nat} {data : List Nat}
    {p : SourceHLSPlaylist} (h : epochPlaylist durationOK e data init = some p) :
    PlaylistOK e init p := by
  rw [epochPlaylist] at h
  split at h
  · cases h
  split at h
  · cases h
  next media hparse =>
  split at h
  · cases h
  next sequence hsequence =>
  dsimp only at h
  split at h
  · cases h
  next hsegments =>
  have hparsed := sourceHLSParsePlaylist_parsed hparse
  obtain ⟨n, hn⟩ := hparsed.sequence
  obtain ⟨rfl, hfrom, hto⟩ := (mediaSequence_eq (n := n) hsequence).2 hn
  have hnot : ∀ line ∈ playlistLines data, 10 ∉ line := fun line hline =>
    not_mem_of_mem_splitOn hline
  generalize hfiles : (playlistLines data).flatMap lineSegments = files at *
  have htail : media.tail = files := by rw [hparsed.objects, hfiles]; rfl
  have hlength : media.length = files.length + 1 := by rw [hparsed.objects, hfiles]; rfl
  have hsome : 0 < files.length := length_pos_iff.mpr (hfiles ▸ hparsed.some)
  have hnumbers : ∀ i name, files[i]? = some name →
      IsSegment name (sequence + i) ∧ sequence + i < epochStart e + sourceHLSEpochSpan := by
    intro i name hi
    have hall : segmentsOK e sequence media.tail = true := by simpa using hsegments
    rw [htail, segmentsOK, all_eq_true] at hall
    have hin : (name, i) ∈ files.zipIdx := by
      rw [mem_zipIdx_iff_getElem?]
      exact hi
    obtain ⟨hnumber, hend, hname⟩ := of_decide_eq_true (hall (name, i) hin)
    rw [hnumber] at hend hname
    exact ⟨⟨hparsed.segments name (hfiles ▸ mem_of_getElem? hi), hname, hnumber⟩, hend⟩
  have hlast : sequence + (files.length - 1) < epochStart e + sourceHLSEpochSpan := by
    have hget := getElem?_eq_getElem (show files.length - 1 < files.length by omega)
    have := hnumbers _ _ hget
    omega
  -- what is read off the lines is read off the text
  have hread : ∀ text, (∀ (α : Type) (f : List Nat → List α), (∀ line, Plain line → f line = []) →
      (text.splitOn 10).flatMap f = (playlistLines data).flatMap f) →
        (∀ name ∈ references text, name ∈ media)
        ∧ playlistWindow text = some ⟨sequence, sequence + (media.length - 2)⟩ := by
    intro text hsame
    constructor
    · intro name hname
      rw [references, hsame _ _ fun _ hplain => hplain.references] at hname
      exact hparsed.references name hname
    · rw [playlistWindow, hsame _ _ fun _ hplain => hplain.sequence,
        hsame _ _ fun _ hplain => hplain.segments, hn, hfiles]
      have hsum : sequence + files.length - 1 = sequence + (media.length - 2) := by omega
      simp only [hsum]
  have hobjects : media = init :: files := hfiles ▸ hparsed.objects
  have hinit : init ∈ media := hobjects ▸ mem_cons_self
  have hmedia : ∀ name ∈ media, name = init
      ∨ ∃ n, IsSegment name n ∧ sequence ≤ n ∧ n ≤ sequence + (media.length - 2) := by
    intro name hname
    rw [hobjects] at hname
    rcases mem_cons.mp hname with heq | hname
    · exact .inl heq
    · obtain ⟨i, hi⟩ := mem_iff_getElem?.mp hname
      have hlt := (List.getElem?_eq_some_iff.mp hi).1
      exact .inr ⟨sequence + i, (hnumbers i name hi).1, by omega, by omega⟩
  have hshown : ∀ n, sequence ≤ n → n ≤ sequence + (media.length - 2) → segmentName n ∈ media := by
    intro n hle hle'
    have hi := getElem?_eq_getElem (show n - sequence < files.length by omega)
    have hname := (hnumbers _ _ hi).1.2.1
    rw [show sequence + (n - sequence) = n by omega] at hname
    rw [hobjects, ← hname]
    exact mem_cons_of_mem _ (getElem_mem _)
  have hend : sequence + (media.length - 2) < epochStart e + sourceHLSEpochSpan := by omega
  split_ifs at h with hzero hlong
  · cases h
    have hfacts := hread data fun α f hplain => flatMap_splitOn (hplain [] plain_nil) data
    exact ⟨hfacts.1, hinit, hmedia, hshown, hfacts.2, hfrom, hend⟩
  · cases h
    have hfacts := hread (unlines (epochLines e sequence (playlistLines data))) fun α f hplain => by
      rw [splitOn_unlines (not_mem_epochLines hnot), flatMap_append,
        flatMap_epochLines hplain, flatMap_singleton, hplain [] plain_nil, append_nil]
    exact ⟨hfacts.1, hinit, hmedia, hshown, hfacts.2, hfrom, hend⟩

end Packager

end WebrtcMinimize
