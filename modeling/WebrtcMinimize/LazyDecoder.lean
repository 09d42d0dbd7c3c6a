import WebrtcMinimize.OpusPackets
import WebrtcMinimize.SourceClock

/-!
# The lazy source decoder

`sourceLazyDecoder` starts its decoder with the first key frame that the clock can
place, holds that frame while the decoder starts in another goroutine, and passes the
later ones on. An event is one critical section of its mutex: a call of `WriteEncoded`
or `Close`, or one turn of `run`'s loop. What the clock, the permission and the decoder
answer in a section comes with the event, so every interleaving and every behaviour of
the clock is a list of events. The requests for a key frame are left out: nothing
depends on them.
-/

namespace WebrtcMinimize

namespace Packager

open List

/-- The width, the height and whether it is a key frame. -/
def sourceVP8Dimensions (frame : List UInt8) : Except String (Nat × Nat × Bool) :=
  let byte i := (frame.getD i 0).toNat
  if frame.length < 3 ∨ 4 * 1024 * 1024 < frame.length ∨ byte 0 / 16 % 2 = 0
      ∨ 3 < byte 0 / 2 % 8 then .error "source video frame format"
  else if byte 0 % 2 = 0 then
    if frame.length < 10 ∨ byte 3 ≠ 0x9d ∨ byte 4 ≠ 0x01 ∨ byte 5 ≠ 0x2a then
      .error "source video keyframe format"
    else
      let width := (byte 6 + 256 * byte 7) % 16384
      let height := (byte 8 + 256 * byte 9) % 16384
      if width < 2 ∨ 1920 < width ∨ height < 2 ∨ 1080 < height then
        .error "source video dimensions"
      else .ok (width, height, true)
  else .ok (0, 0, false)

namespace LazyDecoder

/-- A frame by its call of `WriteEncoded`. -/
structure Frame where
  number : Nat
  timestamp : UInt32
  bytes : List UInt8
deriving DecidableEq

/-- What the others answer in a critical section; an error is a text. -/
structure Answers where
  /-- Not revoked, and allowed by the budget and the authority. -/
  allowed : Bool
  /-- The clock can place the frame. -/
  ready : Bool
  clock : SourceVideoTimeState
  prepare : Option String
  sink : Option String
deriving DecidableEq

structure SourceLazyDecoder where
  codec : String
  closed : Bool
  /-- `pending` is not nil. -/
  pending : Bool
  /-- `decoder.sink` is not nil. -/
  decoder : Bool
  /-- `frame` and `timestamp` -/
  frame : Option Frame
  last : UInt32
  observed : Bool
  missing : Bool
  needKey : Bool
  waitingClock : Bool
  /-- The channel `start` holds a value. -/
  start : Bool
  /-- `run` is in its loop. -/
  running : Bool
  starting : Bool
deriving DecidableEq

/-- What a section leaves: its error, the frame handed to the decoder, and the state. -/
structure Outcome where
  error : Option String
  handed : Option Frame
  decoder : SourceLazyDecoder

namespace SourceLazyDecoder

def new (codec : String) : SourceLazyDecoder where
  codec := codec
  closed := false
  pending := false
  decoder := false
  frame := none
  last := 0
  observed := false
  missing := false
  needKey := false
  waitingClock := false
  start := false
  running := true
  starting := false

def close (l : SourceLazyDecoder) : SourceLazyDecoder :=
  if l.closed then l else { l with closed := true, frame := none }

def permitted (l : SourceLazyDecoder) (a : Answers) : Bool := !l.closed && a.allowed

/-- A frame for a decoder that runs. -/
def feed (l : SourceLazyDecoder) (frame : Frame) (key : Bool) (a : Answers) : Outcome :=
  if l.needKey ∧ key = false then ⟨none, none, l⟩
  else
    let l := { l with needKey := false }
    match a.sink with
    | some e => ⟨some e, some frame, l.close⟩
    | none => ⟨none, some frame, l⟩

/-- Whether it is a key frame, of a codec that has those. -/
def parse (codec : String) (bytes : List UInt8) : Except String Bool :=
  if codec = "video/vp8" then (sourceVP8Dimensions bytes).map (·.2.2)
  else if codec = "audio/opus" then (OpusPackets.sourceOpusSamples bytes).map fun _ => false
  else .ok false

def writeEncoded (l : SourceLazyDecoder) (codec : String) (frame : Frame) (a : Answers) : Outcome :=
  let rate : UInt32 := if l.codec = "video/vp8" then 90000 else 48000
  match parse codec frame.bytes with
  | .error _ => ⟨some "lazy source input denied", none, l.close⟩
  | .ok key =>
      if l.permitted a = false ∨ codec ≠ l.codec
          ∨ l.observed ∧ (frame.timestamp = l.last ∨ rate * 600 < frame.timestamp - l.last) then
        ⟨some "lazy source input denied", none, l.close⟩
      else
        let l := { l with observed := true, last := frame.timestamp }
        if l.decoder then
          if l.waitingClock then
            match a.clock with
            | .denied => ⟨some "lazy source clock denied", none, l.close⟩
            | .ready => { l with waitingClock := false }.feed frame key a
            | _ => ⟨none, none, l⟩
          else l.feed frame key a
        else if l.pending then ⟨none, none, { l with missing := true }⟩
        else if a.ready = false then ⟨none, none, l⟩
        else if codec = "video/vp8" ∧ key = false then ⟨none, none, l⟩
        else
          match a.prepare with
          | some e => ⟨some e, none, l.close⟩
          | none => ⟨none, none, { l with pending := true, frame := some frame, start := true }⟩

/-- `run` ends: its deferred function closes. -/
def leave (l : SourceLazyDecoder) : SourceLazyDecoder := { l.close with running := false }

/-- The turn of `run` for `start`. -/
def launch (l : SourceLazyDecoder) : SourceLazyDecoder :=
  if l.running && l.start then { l with start := false, starting := true } else l

/-- The turn of `run` for the result of the start-up. -/
def result (l : SourceLazyDecoder) (err : Option String) (a : Answers) : Outcome :=
  if l.running && l.starting then
    let l := { l with starting := false }
    match err with
    | some e => ⟨some e, none, l.leave⟩
    | none =>
        let l := { l with decoder := true }
        let video := decide (l.codec = "video/vp8")
        let ready := if video then decide (a.clock = .ready) else a.ready
        let waitingClock := video && decide (a.clock = .suspended)
        if l.permitted a = false ∨ ready = false ∧ waitingClock = false then ⟨none, none, l.leave⟩
        else if video ∧ (l.missing ∨ waitingClock) then
          ⟨none, none, { l with
            needKey := true, waitingClock := waitingClock, frame := none, pending := false }⟩
        else
          let done := { l with frame := none, pending := false }
          match a.sink with
          | some e => ⟨some e, l.frame, done.leave⟩
          | none => ⟨none, l.frame, done⟩
  else ⟨none, none, l⟩

/-- The start-up ends after `run` has left its loop. -/
def reap (l : SourceLazyDecoder) (err : Option String) : SourceLazyDecoder :=
  if !l.running && l.starting then
    { l with starting := false, decoder := l.decoder || err.isNone }
  else l

end SourceLazyDecoder

inductive Event
  | write (codec : String) (timestamp : UInt32) (bytes : List UInt8) (a : Answers)
  | close
  | launch
  | result (err : Option String) (a : Answers)
  /-- A tick; it fails without permission, or when the clock's own tick does. -/
  | tick (failed : Bool)
  /-- `run` ends for another reason: closed, revoked, the decoder has finished, or it
  took too long to start. -/
  | leave
  | reap (err : Option String)
deriving DecidableEq

/-- The decoder with the frames of all calls of `WriteEncoded`, of those that returned
nil, and those handed to the decoder. -/
structure System where
  lazy : SourceLazyDecoder
  arrived : List Frame
  accepted : List Frame
  handed : List Frame

def System.new : System := ⟨.new "video/vp8", [], [], []⟩

/-- The frame arrives and is answered. -/
def System.record (s : System) (frame : Frame) (o : Outcome) : System where
  lazy := o.decoder
  arrived := s.arrived ++ [frame]
  accepted := if o.error.isNone then s.accepted ++ [frame] else s.accepted
  handed := s.handed ++ o.handed.toList

def System.answer (s : System) (o : Outcome) : System :=
  { s with lazy := o.decoder, handed := s.handed ++ o.handed.toList }

def System.step (s : System) : Event → System
  | .write codec timestamp bytes a =>
      let frame : Frame := ⟨s.arrived.length, timestamp, bytes⟩
      s.record frame (s.lazy.writeEncoded codec frame a)
  | .close => { s with lazy := s.lazy.close }
  | .launch => { s with lazy := s.lazy.launch }
  | .result err a => s.answer (s.lazy.result err a)
  | .tick failed => if s.lazy.running && failed then { s with lazy := s.lazy.leave } else s
  | .leave => { s with lazy := s.lazy.leave }
  | .reap err => { s with lazy := s.lazy.reap err }

def System.run (s : System) (events : List Event) : System := events.foldl System.step s

/-- A key frame of VP8. -/
def Frame.Key (f : Frame) : Prop := ∃ width height, sourceVP8Dimensions f.bytes = .ok (width, height, true)

/-- After the frame `f`, the next one that is handed over: later, and a key frame when
one that was accepted in between was not handed over. -/
def Follows (accepted : List Frame) (f g : Frame) : Prop :=
  f.number < g.number
    ∧ ((∃ h ∈ accepted, f.number < h.number ∧ h.number < g.number) → g.Key)

/-- What the frames handed over so far are like. -/
structure Clean (s : System) : Prop where
  first : ∀ f ∈ s.handed.head?, f.Key
  gaps : s.handed.IsChain (Follows s.accepted)
  inOrder : s.handed.Sublist s.arrived

/-! ## What a step leaves -/

variable {s : System}

/-- A frame that may be handed over next: it is a key frame, or nothing was accepted
since the last one. -/
def May (s : System) (g : Frame) : Prop :=
  g.Key ∨ ∃ f ∈ s.handed.getLast?, ∀ h ∈ s.accepted, h.number ≤ f.number

/-- Where the decoder is, and what it remembers of the frames there. -/
inductive Phase (s : System) : Prop
  | closed (h : s.lazy.closed = true)
  | idle (hrunning : s.lazy.running = true) (hdecoder : s.lazy.decoder = false)
      (hpending : s.lazy.pending = false)
      (hstarting : s.lazy.starting = false) (hstart : s.lazy.start = false)
      (hwaiting : s.lazy.waitingClock = false) (hnone : s.handed = [])
  | held (f : Frame) (hrunning : s.lazy.running = true) (hdecoder : s.lazy.decoder = false)
      (hpending : s.lazy.pending = true)
      (hstart : s.lazy.starting = true → s.lazy.start = false) (hframe : s.lazy.frame = some f)
      (hkey : f.Key) (harrived : f ∈ s.arrived) (hwaiting : s.lazy.waitingClock = false)
      (hnone : s.handed = [])
      (hmissing : s.lazy.missing = true ∨ ∀ h ∈ s.accepted, h.number ≤ f.number)
  | feeding (hrunning : s.lazy.running = true) (hdecoder : s.lazy.decoder = true)
      (hstarting : s.lazy.starting = false)
      (hstart : s.lazy.start = false) (hwaiting : s.lazy.waitingClock = true → s.lazy.needKey = true)
      (hmay : s.lazy.needKey = false → ∀ g, May s g)

structure Inv (s : System) : Prop extends Clean s where
  codec : s.lazy.codec = "video/vp8"
  numbered : ∀ f ∈ s.arrived, f.number < s.arrived.length
  accepted : s.accepted ⊆ s.arrived
  phase : Phase s

theorem Inv.record (h : Inv s) {frame : Frame} (hnumber : frame.number = s.arrived.length)
    {o : Outcome} (hcodec : o.decoder.codec = "video/vp8")
    (hhanded : ∀ g ∈ o.handed, g = frame ∧ May s frame) (hphase : Phase (s.record frame o)) :
    Inv (s.record frame o) := by
  have hmem : ∀ f ∈ s.handed, f.number < s.arrived.length := fun f hf =>
    h.numbered f (h.inOrder.subset hf)
  have haccepted : ∀ f ∈ (s.record frame o).accepted, f ∈ s.accepted ∨ f = frame := by
    intro f hf
    simp only [System.record] at hf
    split at hf
    · simpa using hf
    · exact .inl hf
  -- the frame comes after all that were handed over, so it is no gap between them
  have hold : s.handed.IsChain (Follows (s.record frame o).accepted) := by
    refine h.gaps.imp_of_mem_imp ?_
    rintro a b - hb ⟨hlt, hgap⟩
    refine ⟨hlt, ?_⟩
    rintro ⟨f, hf, hbetween⟩
    rcases haccepted f hf with hf | rfl
    · exact hgap ⟨f, hf, hbetween⟩
    · have := hmem b hb
      omega
  refine ⟨⟨?_, ?_, ?_⟩, hcodec, ?_, ?_, hphase⟩
  · intro f hf
    simp only [System.record, head?_append] at hf
    cases hs : s.handed with
    | cons first rest => exact h.first f (by simpa [hs] using hf)
    | nil =>
        obtain ⟨rfl, hmay⟩ := hhanded f (by simpa [hs] using hf)
        rcases hmay with hkey | ⟨_, hlast, -⟩
        · exact hkey
        · simp [hs] at hlast
  · refine hold.append ?_ ?_
    · cases o.handed <;> simp
    · intro f hf g hg
      obtain ⟨rfl, hmay⟩ := hhanded g (by simpa using hg)
      refine ⟨hnumber ▸ hmem f (mem_of_getLast? hf), ?_⟩
      rintro ⟨e, he, hlt, hlt'⟩
      rcases hmay with hkey | ⟨f', hf', hall⟩
      · exact hkey
      · cases hf.symm.trans hf'
        rcases haccepted e he with he | rfl
        · have := hall e he
          omega
        · omega
  · refine h.inOrder.append ?_
    cases ho : o.handed with
    | none => simp
    | some g => simp [(hhanded g ho).1]
  · intro f hf
    rcases mem_append.mp hf with hf | hf
    · have := h.numbered f hf
      simp only [System.record, length_append, length_singleton]
      omega
    · simp only [mem_singleton.mp hf, System.record, length_append, length_singleton]
      omega
  · intro f hf
    rcases haccepted f hf with hf | rfl
    · exact mem_append_left _ (h.accepted hf)
    · simp [System.record]

/-- A change of the decoder alone. -/
theorem Inv.change (h : Inv s) {l : SourceLazyDecoder} (hcodec : l.codec = "video/vp8")
    (hphase : Phase { s with lazy := l }) : Inv { s with lazy := l } :=
  ⟨⟨h.first, h.gaps, h.inOrder⟩, hcodec, h.numbered, h.accepted, hphase⟩

section

variable (l : SourceLazyDecoder)

@[simp] theorem close_closed : l.close.closed = true := by
  rw [SourceLazyDecoder.close]
  split
  · assumption
  · rfl

@[simp] theorem close_codec : l.close.codec = l.codec := by
  rw [SourceLazyDecoder.close]
  split <;> rfl

@[simp] theorem leave_closed : l.leave.closed = true := close_closed l

@[simp] theorem leave_codec : l.leave.codec = l.codec := close_codec l

end

/-- An answered frame keeps the codec, is handed over only if it may be, and leaves one
of the phases. -/
structure Recorded (s : System) (frame : Frame) (o : Outcome) : Prop where
  codec : o.decoder.codec = "video/vp8"
  handed : ∀ g ∈ o.handed, g = frame ∧ May s frame
  phase : Phase (s.record frame o)

theorem recorded_feed (h : Inv s) {frame : Frame} (hnumber : frame.number = s.arrived.length)
    {key : Bool} (hkey : key = true → frame.Key) {l : SourceLazyDecoder} (a : Answers)
    (hcodec : l.codec = "video/vp8") (hrunning : l.running = true) (hdecoder : l.decoder = true)
    (hstarting : l.starting = false) (hstart : l.start = false) (hwaiting : l.waitingClock = false)
    (hmay : l.needKey = false → ∀ g, May s g) : Recorded s frame (l.feed frame key a) := by
  rw [SourceLazyDecoder.feed]
  split
  · rename_i hneed
    exact ⟨hcodec, by simp, .feeding hrunning hdecoder hstarting hstart (by simp [System.record, hwaiting])
      (by simp [System.record, hneed.1])⟩
  · rename_i hgiven
    have hframe : May s frame := by
      cases hneed : l.needKey with
      | false => exact hmay hneed _
      | true => exact .inl (hkey (by simpa [hneed] using hgiven))
    cases a.sink with
    | some e => exact ⟨(close_codec _).trans hcodec, by simp [hframe], .closed (close_closed _)⟩
    | none =>
        refine ⟨hcodec, by simp [hframe], .feeding hrunning hdecoder hstarting hstart ?_ fun _ g => ?_⟩
        · simp [System.record, hwaiting]
        · refine .inr ⟨frame, by simp [System.record], fun f hf => ?_⟩
          rcases mem_append.mp hf with hf | hf
          · have := h.numbered f (h.accepted hf)
            omega
          · rw [mem_singleton.mp hf]

theorem recorded_write (h : Inv s) {frame : Frame} (hnumber : frame.number = s.arrived.length)
    (codec : String) (a : Answers) : Recorded s frame (s.lazy.writeEncoded codec frame a) := by
  have hclosed : ∀ (e : String) (l : SourceLazyDecoder), l.codec = "video/vp8" →
      Recorded s frame ⟨some e, none, l.close⟩ := fun e l hl =>
    ⟨(close_codec l).trans hl, by simp, .closed (close_closed l)⟩
  rw [SourceLazyDecoder.writeEncoded]
  cases hparse : SourceLazyDecoder.parse codec frame.bytes with
  | error e => exact hclosed _ _ h.codec
  | ok key =>
      simp only [if_pos h.codec]
      split
      · exact hclosed _ _ h.codec
      · rename_i hgood
        simp only [not_or, Bool.not_eq_false, not_not] at hgood
        obtain ⟨hpermitted, rfl, -⟩ := hgood
        have hkey : key = true → frame.Key := by
          rintro rfl
          rw [SourceLazyDecoder.parse, if_pos h.codec] at hparse
          cases hdimensions : sourceVP8Dimensions frame.bytes with
          | error e => simp [hdimensions, Except.map] at hparse
          | ok d =>
              obtain ⟨width, height, key⟩ := d
              simp only [hdimensions, Except.map, Except.ok.injEq] at hparse
              exact ⟨width, height, hparse ▸ hdimensions⟩
        have hlive : s.lazy.closed ≠ true := by
          intro hc
          simp [SourceLazyDecoder.permitted, hc] at hpermitted
        rcases h.phase with hc | ⟨hrunning, hdecoder, hpending, hstarting, hstart, hwaiting, hnone⟩
          | ⟨f, hrunning, hdecoder, hpending, hstart, hframe, hkey, harrived, hwaiting, hnone, hmissing⟩
          | ⟨hrunning, hdecoder, hstarting, hstart, hwaiting, hmay⟩
        · exact absurd hc hlive
        · have hidle : ∀ l : SourceLazyDecoder, l.codec = "video/vp8" → l.running = true →
              l.decoder = false → l.pending = false → l.starting = false → l.start = false → l.waitingClock = false →
              Recorded s frame ⟨none, none, l⟩ := fun l hl hrunning h₁ h₂ h₃ h₄ h₅ =>
            ⟨hl, by simp, .idle hrunning h₁ h₂ h₃ h₄ h₅ (by simpa [System.record] using hnone)⟩
          simp only [hdecoder, hpending, Bool.false_eq_true, if_false]
          split
          · exact hidle _ h.codec hrunning rfl rfl hstarting hstart hwaiting
          · split
            · exact hidle _ h.codec hrunning rfl rfl hstarting hstart hwaiting
            · rename_i hfirst
              cases a.prepare with
              | some e => exact hclosed _ _ h.codec
              | none =>
                  refine ⟨h.codec, by simp, .held frame hrunning rfl rfl ?_ rfl (hkey ?_) ?_ hwaiting ?_ ?_⟩
                  · simp [System.record, hstarting]
                  · simpa [h.codec] using hfirst
                  · simp [System.record]
                  · simpa [System.record] using hnone
                  · refine .inr fun g hg => ?_
                    rcases mem_append.mp hg with hg | hg
                    · have := h.numbered g (h.accepted hg)
                      omega
                    · rw [mem_singleton.mp hg]
        · simp only [hdecoder, hpending, Bool.false_eq_true, if_false, if_true]
          exact ⟨h.codec, by simp, .held f hrunning rfl rfl hstart hframe hkey
            (mem_append_left _ harrived) hwaiting (by simpa [System.record] using hnone) (.inl rfl)⟩
        · simp only [hdecoder, if_true]
          split
          · rename_i hw
            cases a.clock with
            | denied => exact hclosed _ _ h.codec
            | ready =>
                exact recorded_feed h hnumber hkey a h.codec hrunning rfl hstarting hstart rfl
                  (by simp [hwaiting hw])
            | _ =>
                exact ⟨h.codec, by simp, .feeding hrunning rfl hstarting hstart (fun _ => hwaiting hw)
                  (by simp [System.record, hwaiting hw])⟩
          · rename_i hw
            exact recorded_feed h hnumber hkey a h.codec hrunning rfl hstarting hstart (by simpa using hw)
              hmay

/-- The held frame is the first that is handed over. -/
theorem Inv.hand (h : Inv s) {f : Frame} (hnone : s.handed = []) (hkey : f.Key)
    (harrived : f ∈ s.arrived) {l : SourceLazyDecoder} (hcodec : l.codec = "video/vp8")
    (error : Option String) (hphase : Phase { s with lazy := l, handed := [f] }) :
    Inv (s.answer ⟨error, some f, l⟩) := by
  rw [System.answer, hnone]
  exact ⟨⟨by simpa using hkey, by simp, by simpa using harrived⟩, hcodec, h.numbered, h.accepted,
    hphase⟩

theorem Inv.result (h : Inv s) (err : Option String) (a : Answers) :
    Inv (s.answer (s.lazy.result err a)) := by
  have hstay : ∀ (error : Option String) (l : SourceLazyDecoder), l.codec = "video/vp8" →
      Phase { s with lazy := l } → Inv (s.answer ⟨error, none, l⟩) := by
    intro error l hl hphase
    simpa [System.answer] using h.change hl hphase
  rw [SourceLazyDecoder.result]
  split
  · rename_i hrun
    have hstarting := (Bool.and_eq_true_iff.mp hrun).2
    cases err with
    | some e =>
        exact hstay _ _ ((leave_codec _).trans h.codec) (.closed (leave_closed _))
    | none =>
        simp only [h.codec, decide_true, if_true, Bool.true_and, true_and]
        split
        · exact hstay _ _ (leave_codec _) (.closed (leave_closed _))
        · rename_i hgood
          rcases h.phase with hc | ⟨-, -, -, hno, -, -, -⟩
            | ⟨f, hrunning, hdecoder, hpending, hstart, hframe, hkey, harrived, hwaiting, hnone, hmissing⟩ | ⟨-, -, hno, -, -, -⟩
          · simp [SourceLazyDecoder.permitted, hc] at hgood
          · simp [hno] at hstarting
          · split
            · exact hstay _ _ rfl (.feeding hrunning rfl rfl (hstart hstarting) (fun _ => rfl) (by simp))
            · rename_i hclean
              simp only [hframe]
              cases a.sink with
              | some e => exact h.hand hnone hkey harrived (leave_codec _) _ (.closed (leave_closed _))
              | none =>
                  have hlast : ∀ g ∈ s.accepted, g.number ≤ f.number :=
                    hmissing.resolve_left fun hm => hclean (.inl hm)
                  exact h.hand hnone hkey harrived rfl _
                    (.feeding hrunning rfl rfl (hstart hstarting) (by simp [hwaiting]) fun _ g => .inr ⟨f, rfl, hlast⟩)
          · simp [hno] at hstarting
  · exact hstay _ _ h.codec h.phase

theorem Inv.step (h : Inv s) (event : Event) : Inv (s.step event) := by
  have hleave : Inv { s with lazy := s.lazy.leave } :=
    h.change ((leave_codec _).trans h.codec) (.closed (leave_closed _))
  cases event with
  | write codec timestamp bytes a =>
      have hwrite : Recorded s ⟨s.arrived.length, timestamp, bytes⟩ _ := recorded_write h rfl codec a
      exact h.record rfl hwrite.codec hwrite.handed hwrite.phase
  | close => exact h.change ((close_codec _).trans h.codec) (.closed (close_closed _))
  | result err a => exact h.result err a
  | leave => exact hleave
  | tick failed =>
      rw [System.step]
      split
      · exact hleave
      · exact h
  | launch =>
      rw [System.step, SourceLazyDecoder.launch]
      split
      · rename_i hstart
        refine h.change h.codec ?_
        rcases h.phase with hc | ⟨-, -, -, -, hno, -, -⟩
          | ⟨f, hrunning, hdecoder, hpending, -, hframe, hkey, harrived, hwaiting, hnone, hmissing⟩ | ⟨-, -, -, hno, -, -⟩
        · exact .closed hc
        · simp [hno] at hstart
        · exact .held f hrunning hdecoder hpending (fun _ => rfl) hframe hkey harrived hwaiting hnone hmissing
        · simp [hno] at hstart
      · exact h
  | reap err =>
      rw [System.step, SourceLazyDecoder.reap]
      split
      · rename_i hdone
        simp only [Bool.and_eq_true, Bool.not_eq_true'] at hdone
        refine h.change h.codec (.closed ?_)
        rcases h.phase with hc | ⟨hrunning, -⟩ | ⟨-, hrunning, -⟩ | ⟨hrunning, -⟩
        · exact hc
        all_goals simp [hdone] at hrunning
      · exact h

/-! ## Runs -/

theorem Inv.run (h : Inv s) (events : List Event) : Inv (s.run events) := by
  induction events generalizing s with
  | nil => exact h
  | cons event events ih => exact ih (h.step event)

theorem inv_new : Inv System.new :=
  ⟨⟨by simp [System.new], by simp [System.new], by simp [System.new]⟩, rfl, by simp [System.new],
    by simp [System.new], .idle rfl rfl rfl rfl rfl rfl rfl⟩

/-- A closed decoder stays closed, and nothing is handed to it. -/
theorem step_closed (h : s.lazy.closed = true) (event : Event) :
    (s.step event).lazy.closed = true ∧ (s.step event).handed = s.handed := by
  have hdenied : ∀ (l : SourceLazyDecoder) (a : Answers), l.closed = true →
      l.permitted a = false := fun l a hl => by simp [SourceLazyDecoder.permitted, hl]
  cases event with
  | write codec timestamp bytes a =>
      simp only [System.step, SourceLazyDecoder.writeEncoded]
      cases SourceLazyDecoder.parse codec bytes <;> simp [System.record, hdenied _ a h]
  | result err a =>
      rw [System.step, SourceLazyDecoder.result]
      split
      · cases err <;> simp [System.answer, SourceLazyDecoder.permitted, h]
      · simp [System.answer, h]
  | tick failed =>
      rw [System.step]
      split <;> simp [h]
  | launch =>
      rw [System.step, SourceLazyDecoder.launch]
      split <;> exact ⟨h, rfl⟩
  | reap err =>
      rw [System.step, SourceLazyDecoder.reap]
      split <;> exact ⟨h, rfl⟩
  | _ => simp [System.step]

theorem run_closed (h : s.lazy.closed = true) (events : List Event) :
    (s.run events).handed = s.handed := by
  induction events generalizing s with
  | nil => rfl
  | cons event events ih =>
      obtain ⟨hclosed, hhanded⟩ := step_closed h event
      exact (ih hclosed).trans hhanded

/-- In every run, the frames handed over start with a key frame, none but a key frame
follows a gap, they keep their order, and a closed decoder gets none. -/
theorem no_delta_after_gap (events later : List Event) :
    Clean (System.new.run events) ∧ ((System.new.run events).lazy.closed = true →
      ((System.new.run events).run later).handed = (System.new.run events).handed) :=
  ⟨(inv_new.run events).toClean, fun h => run_closed h later⟩

end LazyDecoder

end Packager

end WebrtcMinimize
