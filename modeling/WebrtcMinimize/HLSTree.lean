import WebrtcMinimize.HLSStage

/-!
# The public tree

What holds of the public tree between any two file operations, in runs whose
callers stop at the first error of `Publish`. The stage keeps a log of its
renames; a rename of a playlist needs the objects it refers to, that of the
master the playlists (`Renamed.needs`).

`StageOK` is about the stage at any time. Its field `retained` is the rule of
the cycle counters: what a playlist needs is still recorded with a cycle not
before the playlist's, or the playlist is three cycles old. `Live` is about
the rest of a call that has not failed: the tasks come in the order of their
ranks, and each finds what it needs or a task before it that makes it.
-/

namespace WebrtcMinimize

namespace Packager

open Checks Runs KeyedMap List Nat

/-! ## Names and windows -/

def SourceHLSWindow.Before (v w : SourceHLSWindow) : Prop := v.first ≤ w.first ∧ v.last ≤ w.last

theorem SourceHLSWindow.Before.refl (v : SourceHLSWindow) : v.Before v :=
  ⟨le_refl _, le_refl _⟩

theorem SourceHLSWindow.Before.trans {u v w : SourceHLSWindow} (h : u.Before v)
    (h' : v.Before w) : u.Before w :=
  ⟨le_trans h.1 h'.1, le_trans h.2 h'.2⟩

theorem IsSegment.unique {name : List Nat} {m n : Nat} (h : IsSegment name m)
    (h' : IsSegment name n) : m = n :=
  h.2.2.symm.trans h'.2.2

theorem IsSegment.ne_index {name : List Nat} {n : Nat} (h : IsSegment name n) :
    name ≠ hlsIndex := by
  rintro rfl
  exact absurd h.1 (by decide)

theorem renditionInitFilename_tag (count i : Nat) :
    ∃ body, renditionInitFilename count i = utf8 "init" ++ body := by
  rw [renditionInitFilename]
  split
  · exact ⟨utf8 ".mp4", by decide⟩
  · exact ⟨utf8 "_" ++ (Json.digits i ++ utf8 ".mp4"), by
      rfl⟩

theorem init_ne_index (count i : Nat) : renditionInitFilename count i ≠ hlsIndex := by
  obtain ⟨body, hbody⟩ := renditionInitFilename_tag count i
  intro heq
  have hstrip : stripTag? (utf8 "init") hlsIndex = none := by decide
  rw [← heq, hbody, stripTag?_append] at hstrip
  cases hstrip

theorem init_not_segment {count i n : Nat} : ¬IsSegment (renditionInitFilename count i) n := by
  obtain ⟨body, hbody⟩ := renditionInitFilename_tag count i
  intro h
  have hsegment := h.1
  rw [sourceHLSSegment, hbody, stripTag?_of_clash body (by decide)] at hsegment
  cases hsegment

/-! ## What a rename needs -/

/-- The objects of a playlist, or the playlists of the master. -/
def Renamed.needs (renditions : List AssignmentRendition) (e : Renamed) : List PublicPath :=
  if e.path.name = hlsIndex then
    if e.path.dir = "" then renditions.map fun r => indexPath r.id
    else (references e.content).map fun name => ⟨e.path.dir, name⟩
  else
    []

theorem Renamed.needs_playlist {renditions : List AssignmentRendition} {e : Renamed} {id : String}
    (h : e.path = indexPath id) (hid : id ≠ "") :
    e.needs renditions = (references e.content).map fun name => ⟨id, name⟩ := by
  obtain ⟨path, cycle, content⟩ := e
  obtain rfl : path = indexPath id := h
  simp [needs, indexPath, hid]

theorem Renamed.needs_master {renditions : List AssignmentRendition} {e : Renamed}
    (h : e.path = indexPath "") : e.needs renditions = renditions.map fun r => indexPath r.id := by
  obtain ⟨path, cycle, content⟩ := e
  obtain rfl : path = indexPath "" := h
  simp [needs, indexPath]

/-- Two renames of one path: it is a playlist's, and its window moved on. -/
structure Renamed.Follows (e e' : Renamed) : Prop where
  index : e.path = e'.path → e.path.name = hlsIndex
  window : e.path = e'.path → e.path.dir ≠ "" → ∃ v v', playlistWindow e.content = some v
    ∧ playlistWindow e'.content = some v' ∧ v.Before v'

/-- The stage has a record of the path that is not older than a cycle. -/
def SourceHLSStage.Known (s : SourceHLSStage) (path : PublicPath) (cycle : Nat) : Prop :=
  ∃ p, s.published.get path = some p ∧ cycle ≤ p.seen

/-! ## The stage -/

structure StageOK (s : SourceHLSStage) : Prop where
  distinct : (s.renditions.map AssignmentRendition.id).Nodup
  proper : ∀ r ∈ s.renditions, r.id ≠ ""
  linked : ∀ path f, s.tree.get path = some f →
    (∃ p, s.published.get path = some p) ∨ path ∈ s.unrecorded
  present : ∀ path p, s.published.get path = some p → ∃ f, s.tree.get path = some f
  content : ∀ path f, s.tree.get path = some f → ∃ e ∈ s.log, e.path = path ∧ e.content = f.content
  dirs : ∀ e ∈ s.log, e.path.name = hlsIndex →
    e.path.dir = "" ∨ ∃ r ∈ s.renditions, r.id = e.path.dir
  master : ∀ e ∈ s.log, e.path = indexPath "" → e.content = masterText s.renditions
  past : ∀ e ∈ s.log, e.cycle ≤ s.cycle
  follows : s.log.Pairwise Renamed.Follows
  retained : s.closed = false → ∀ e ∈ s.log, ∀ path ∈ e.needs s.renditions,
    s.Known path e.cycle ∨ e.cycle + 2 < s.cycle
  recent : s.closed = false → ∀ path f, s.tree.get path = some f → path.name = hlsIndex →
    ∃ e ∈ s.log, e.path = path ∧ e.content = f.content ∧ s.cycle ≤ e.cycle + 1

/-- A rename into the tree, recorded or not. -/
structure Committed (s s' : SourceHLSStage) (path : PublicPath) (content : List Nat) : Prop where
  renditions : s'.renditions = s.renditions
  epoch : s'.epoch = s.epoch
  windows : s'.windows = s.windows
  cycle : s'.cycle = s.cycle
  closed : s'.closed = s.closed
  tree : ∃ id, s'.tree = s.tree.set path ⟨id, content⟩
  log : s'.log = s.log ++ [⟨path, s.cycle, content⟩]
  others : ∀ q, q ≠ path → s'.published.get q = s.published.get q
  record : (∃ p, s'.published.get path = some p ∧ p.seen = s.cycle) ∧ s'.unrecorded = s.unrecorded
    ∨ s'.published.get path = s.published.get path ∧ s'.unrecorded = path :: s.unrecorded

/-- One file gone from tree and record. -/
structure Collected (s s' : SourceHLSStage) (path : PublicPath) : Prop where
  renditions : s'.renditions = s.renditions
  epoch : s'.epoch = s.epoch
  windows : s'.windows = s.windows
  cycle : s'.cycle = s.cycle
  closed : s'.closed = s.closed
  log : s'.log = s.log
  unrecorded : s'.unrecorded = s.unrecorded
  published : s'.published = s.published.erase path
  gone : s'.tree.get path = none
  others : ∀ q, q ≠ path → s'.tree.get q = s.tree.get q

namespace SourceHLSStage

variable {s s' : SourceHLSStage}

section

variable (s : SourceHLSStage)

theorem commit_cases (path : PublicPath) (content : List Nat) (size : Nat)
    (a : HLSAnswer) :
    s.commit path content size a = (s, false)
    ∨ ∃ s', Committed s s' path content ∧ s.closed = false
      ∧ (s.commit path content size a = (s', false) ∨ s.commit path content size a = (s', true)
          ∧ s'.published = s.published.set path ⟨a.id, size, none, s.cycle⟩) := by
  rw [commit]
  split
  · exact .inl rfl
  next hopen =>
  have hopen : s.closed = false := by
    by_contra hclosed
    exact hopen (.inl (by simpa using hclosed))
  split
  · exact .inl rfl
  · split
    · exact .inr ⟨{ (s.rename path a.id content) with unrecorded := path :: s.unrecorded },
        ⟨rfl, rfl, rfl, rfl, rfl, ⟨a.id, rfl⟩, rfl, fun _ _ => rfl, .inr ⟨rfl, rfl⟩⟩, hopen,
        .inl rfl⟩
    · refine .inr ⟨{ (s.rename path a.id content) with
          published := s.published.set path ⟨a.id, size, none, s.cycle⟩ },
        ⟨rfl, rfl, rfl, rfl, rfl, ⟨a.id, rfl⟩, rfl, fun q hq => get_set_of_ne _ _ hq,
          .inl ⟨⟨_, get_set_self _ _ _, rfl⟩, rfl⟩⟩, hopen, ?_⟩
      cases hafter : a.after with
      | true => exact .inr ⟨rfl, rfl⟩
      | false => exact .inl rfl

/-- What the copy of an object can do: nothing, mark the copy that is there,
or make it. -/
theorem copyMedia_cases (id : String) (name : List Nat) (a : HLSAnswer) :
    s.copyMedia id name a = (s, false)
    ∨ (∃ old, s.published.get ⟨id, name⟩ = some old ∧ s.copyMedia id name a
        = ({ s with published := s.published.set ⟨id, name⟩ { old with seen := s.cycle } }, true))
    ∨ s.published.get ⟨id, name⟩ = none ∧ s.closed = false
      ∧ ∃ s' ok, s.copyMedia id name a = (s', ok) ∧ Committed s s' ⟨id, name⟩ a.bytes
        ∧ (ok = true → s'.Known ⟨id, name⟩ s.cycle) := by
  rw [copyMedia]
  split
  · next old hold =>
      split
      · exact .inr (.inl ⟨old, hold, rfl⟩)
      · exact .inl rfl
  · next hnone =>
      split
      · exact .inl rfl
      · next info hinfo =>
          split
          · exact .inl rfl
          · rcases s.commit_cases ⟨id, name⟩ a.bytes info.size a with
              hfail | ⟨s', hcommitted, hopen, hfail | ⟨hdone, hpublished⟩⟩
            · rw [hfail]
              exact .inl rfl
            · rw [hfail]
              exact .inr (.inr ⟨hnone, hopen, s', false, rfl, hcommitted, fun h => by cases h⟩)
            · rw [hdone]
              have hrecord : s'.unrecorded = s.unrecorded := by
                rcases hcommitted.record with ⟨-, h⟩ | ⟨h, -⟩
                · exact h
                · rw [hpublished, get_set_self, hnone] at h
                  cases h
              refine .inr (.inr ⟨hnone, hopen, _, true, rfl, ⟨hcommitted.renditions,
                hcommitted.epoch, hcommitted.windows, hcommitted.cycle, hcommitted.closed,
                hcommitted.tree, hcommitted.log, fun q hq => ?_,
                .inl ⟨⟨_, get_set_self _ _ _, hcommitted.cycle⟩, hrecord⟩⟩, fun _ => ?_⟩)
              · exact (get_set_of_ne _ _ hq).trans (hcommitted.others q hq)
              · exact ⟨_, get_set_self _ _ _, le_of_eq hcommitted.cycle.symm⟩

theorem remove_cases (path : PublicPath) (p : SourceHLSPublished)
    (a : HLSAnswer) :
    s.remove path p a = (s, false)
    ∨ s.tree.get path = none ∧ s.remove path p a = (s, true)
    ∨ s.remove path p a = ({ s with tree := s.tree.erase path }, true) := by
  rw [remove]
  split
  · exact .inl rfl
  · split
    · next hgone => exact .inr (.inl ⟨hgone, rfl⟩)
    · split
      · exact .inl rfl
      · exact .inr (.inr rfl)

theorem collect_cases (path : PublicPath) (a : HLSAnswer) :
    s.collect path a = (s, false)
    ∨ s.published.get path = none ∧ s.collect path a = (s, true)
    ∨ (∃ p, s.published.get path = some p) ∧ ∃ s', s.collect path a = (s', true)
      ∧ Collected s s' path := by
  rw [collect]
  split
  · next hnone => exact .inr (.inl ⟨hnone, rfl⟩)
  · next p hp =>
      rcases s.remove_cases path p a with h | ⟨hgone, h⟩ | h
      · rw [h]
        exact .inl rfl
      · rw [h]
        exact .inr (.inr ⟨⟨p, hp⟩, { s with published := s.published.erase path }, rfl,
          ⟨rfl, rfl, rfl, rfl, rfl, rfl, rfl, rfl, hgone, fun _ _ => rfl⟩⟩)
      · rw [h]
        exact .inr (.inr ⟨⟨p, hp⟩, { s with
            tree := s.tree.erase path, published := s.published.erase path }, rfl,
          ⟨rfl, rfl, rfl, rfl, rfl, rfl, rfl, rfl, get_erase_self _ _,
            fun q hq => get_erase_of_ne _ hq⟩⟩)

end

end SourceHLSStage

namespace StageOK

variable {s s' : SourceHLSStage} {path : PublicPath} {content : List Nat}

theorem known_committed (h : Committed s s' path content) {q : PublicPath} {cycle : Nat}
    (hle : cycle ≤ s.cycle) (hknown : s.Known q cycle) : s'.Known q cycle := by
  obtain ⟨p, hp, hseen⟩ := hknown
  by_cases hq : q = path
  · subst hq
    rcases h.record with ⟨⟨p', hp', hcycle⟩, -⟩ | ⟨hsame, -⟩
    · exact ⟨p', hp', by omega⟩
    · exact ⟨p, hsame.trans hp, hseen⟩
  · exact ⟨p, (h.others q hq).trans hp, hseen⟩

theorem committed (hok : StageOK s) (h : Committed s s' path content) (hopen : s.closed = false)
    (hdir : path.name = hlsIndex → path.dir = "" ∨ ∃ r ∈ s.renditions, r.id = path.dir)
    (hmaster : path = indexPath "" → content = masterText s.renditions)
    (hneeds : ∀ q ∈ Renamed.needs s.renditions ⟨path, s.cycle, content⟩, s.Known q s.cycle)
    (hfollows : ∀ e ∈ s.log, e.Follows ⟨path, s.cycle, content⟩) : StageOK s' := by
  obtain ⟨id, htree⟩ := h.tree
  have hget : s'.tree.get path = some ⟨id, content⟩ := by rw [htree, get_set_self]
  have hothers : ∀ q, q ≠ path → s'.tree.get q = s.tree.get q := fun q hq => by
    rw [htree, get_set_of_ne _ _ hq]
  have hin : ∀ e ∈ s.log, e ∈ s'.log := fun e he => by
    rw [h.log]
    exact mem_append_left _ he
  have hnew : (⟨path, s.cycle, content⟩ : Renamed) ∈ s'.log := by
    rw [h.log]
    exact mem_append_right _ (mem_singleton.mpr rfl)
  have hlog : ∀ e ∈ s'.log, e ∈ s.log ∨ e = ⟨path, s.cycle, content⟩ := by
    intro e he
    rw [h.log] at he
    exact (mem_append.mp he).imp_right mem_singleton.mp
  refine ⟨?_, ?_, fun q f hf => ?_, fun q p hp => ?_, fun q f hf => ?_, fun e he hindex => ?_,
    fun e he hpath => ?_, fun e he => ?_, ?_, fun hclosed e he q hq => ?_,
    fun hclosed q f hf hindex => ?_⟩
  · rw [h.renditions]
    exact hok.distinct
  · rw [h.renditions]
    exact hok.proper
  · by_cases hq : q = path
    · subst hq
      rcases h.record with ⟨⟨p, hp, -⟩, -⟩ | ⟨-, hunrecorded⟩
      · exact .inl ⟨p, hp⟩
      · exact .inr (hunrecorded ▸ mem_cons_self)
    · rw [hothers q hq] at hf
      rcases hok.linked q f hf with ⟨p, hp⟩ | hunrecorded
      · exact .inl ⟨p, (h.others q hq).trans hp⟩
      · rcases h.record with ⟨-, hsame⟩ | ⟨-, hmore⟩
        · exact .inr (hsame ▸ hunrecorded)
        · exact .inr (hmore ▸ mem_cons_of_mem _ hunrecorded)
  · by_cases hq : q = path
    · exact ⟨_, hq ▸ hget⟩
    · obtain ⟨f, hf⟩ := hok.present q p ((h.others q hq).symm.trans hp)
      exact ⟨f, (hothers q hq).trans hf⟩
  · by_cases hq : q = path
    · subst hq
      cases hget.symm.trans hf
      exact ⟨_, hnew, rfl, rfl⟩
    · obtain ⟨e, he, hfacts⟩ := hok.content q f ((hothers q hq).symm.trans hf)
      exact ⟨e, hin e he, hfacts⟩
  · rw [h.renditions]
    rcases hlog e he with he | rfl
    · exact hok.dirs e he hindex
    · exact hdir hindex
  · rw [h.renditions]
    rcases hlog e he with he | rfl
    · exact hok.master e he hpath
    · exact hmaster hpath
  · rw [h.cycle]
    rcases hlog e he with he | rfl
    · exact hok.past e he
    · exact le_refl _
  · rw [h.log]
    refine pairwise_append.mpr ⟨hok.follows, pairwise_singleton _ _, fun e he e' he' => ?_⟩
    obtain rfl := mem_singleton.mp he'
    exact hfollows e he
  · rw [h.renditions] at hq
    rw [h.cycle]
    rcases hlog e he with he | rfl
    · exact (hok.retained hopen e he q hq).imp_left (known_committed h (hok.past e he))
    · exact .inl (known_committed h (le_refl _) (hneeds q hq))
  · rw [h.cycle]
    by_cases hq : q = path
    · subst hq
      cases hget.symm.trans hf
      exact ⟨_, hnew, rfl, rfl, le_succ _⟩
    · obtain ⟨e, he, hfacts⟩ := hok.recent hopen q f ((hothers q hq).symm.trans hf) hindex
      exact ⟨e, hin e he, hfacts⟩

theorem marked (hok : StageOK s) {old : SourceHLSPublished}
    (hold : s.published.get path = some old) :
    StageOK { s with published := s.published.set path { old with seen := s.cycle } } where
  __ := hok
  linked := by
    intro q f hf
    refine (hok.linked q f hf).imp_left fun ⟨p, hp⟩ => ?_
    by_cases hq : q = path
    · subst hq
      exact ⟨_, get_set_self _ _ _⟩
    · exact ⟨p, (get_set_of_ne _ _ hq).trans hp⟩
  present := by
    intro q p hp
    by_cases hq : q = path
    · exact hq ▸ hok.present path old hold
    · exact hok.present q p ((get_set_of_ne _ _ hq).symm.trans hp)
  retained := by
    intro hclosed e he q hq
    refine (hok.retained hclosed e he q hq).imp_left fun ⟨p, hp, hseen⟩ => ?_
    by_cases hqp : q = path
    · subst hqp
      exact ⟨_, get_set_self _ _ _, hok.past e he⟩
    · exact ⟨p, (get_set_of_ne _ _ hqp).trans hp, hseen⟩

/-- Collecting takes nothing that a playlist of the last cycles needs. -/
theorem collected (hok : StageOK s) (h : Collected s s' path)
    (hold : s.closed = true ∨ ∀ p, s.published.get path = some p → p.seen + 2 < s.cycle) :
    StageOK s' := by
  have htree : ∀ q f, s'.tree.get q = some f → q ≠ path ∧ s.tree.get q = some f := by
    intro q f hf
    by_cases hq : q = path
    · rw [hq, h.gone] at hf
      cases hf
    · exact ⟨hq, (h.others q hq).symm.trans hf⟩
  refine ⟨?_, ?_, fun q f hf => ?_, fun q p hp => ?_, fun q f hf => ?_, ?_, ?_, ?_, ?_,
    fun hclosed e he q hq => ?_, fun hclosed q f hf hindex => ?_⟩
  · rw [h.renditions]
    exact hok.distinct
  · rw [h.renditions]
    exact hok.proper
  · obtain ⟨hq, hf⟩ := htree q f hf
    rw [h.unrecorded, h.published]
    exact (hok.linked q f hf).imp_left fun ⟨p, hp⟩ =>
      ⟨p, (get_erase_of_ne _ hq).trans hp⟩
  · rw [h.published] at hp
    by_cases hq : q = path
    · rw [hq, get_erase_self] at hp
      cases hp
    · obtain ⟨f, hf⟩ := hok.present q p ((get_erase_of_ne _ hq).symm.trans hp)
      exact ⟨f, (h.others q hq).trans hf⟩
  · rw [h.log]
    exact hok.content q f (htree q f hf).2
  · rw [h.log, h.renditions]
    exact hok.dirs
  · rw [h.log, h.renditions]
    exact hok.master
  · rw [h.log, h.cycle]
    exact hok.past
  · rw [h.log]
    exact hok.follows
  · rw [h.log] at he
    rw [h.renditions] at hq
    rw [h.closed] at hclosed
    rw [h.cycle]
    rcases hok.retained hclosed e he q hq with ⟨p, hp, hseen⟩ | hlate
    · by_cases hqp : q = path
      · subst hqp
        have := hold.resolve_left (by simp [hclosed]) p hp
        exact .inr (by omega)
      · refine .inl ⟨p, ?_, hseen⟩
        rw [h.published, get_erase_of_ne _ hqp, hp]
    · exact .inr hlate
  · rw [h.log, h.cycle]
    rw [h.closed] at hclosed
    exact hok.recent hclosed q f (htree q f hf).2 hindex

end StageOK

end Packager

end WebrtcMinimize
