import WebrtcMinimize.HLSTree

/-!
# Publish cycles

The rest of a `Publish` that has not failed (`Live`), and from it the
invariant of runs whose callers stop at the first error. While a call is on
its way, what it has still to rename stands in its tasks; once the windows
are settled, what is published is either of this cycle or behind the window
of its rendition for good (`Retired`), so a name that was collected does not
come back.
-/

namespace WebrtcMinimize

namespace Packager

open Checks Runs List KeyedMap Nat Prod HLSTask Renamed

namespace HLSTask

def rank : HLSTask → Nat
  | .copy _ _ => 0
  | .playlist _ _ => 1
  | .master => 2
  | .settle => 3
  | .collect _ => 4
  | .withdraw _ => 5

/-- The path that a task renames to, or marks. -/
def target : HLSTask → Option PublicPath
  | .copy id name => some ⟨id, name⟩
  | .playlist id _ => some (indexPath id)
  | .master => some (indexPath "")
  | _ => none

def needs (w : HLSWorker) : HLSTask → List PublicPath
  | .playlist id plan => plan.media.map fun name => ⟨id, name⟩
  | .master => w.stage.renditions.map fun r => indexPath r.id
  | .settle => w.plans.flatMap fun (id, plan) => plan.media.map fun name => ⟨id, name⟩
  | _ => []

/-- The order of the tasks; there is one settling. -/
def Precedes (t t' : HLSTask) : Prop := t.rank ≤ t'.rank ∧ (t.rank = 3 → t'.rank ≠ 3)

end HLSTask

/-- A segment behind the window. -/
def SourceHLSStage.Retired (s : SourceHLSStage) (path : PublicPath) : Prop :=
  ∃ n v, IsSegment path.name n ∧ s.windows.get path.dir = some v ∧ n < v.first

/-- The plans of a call: the epoch's, and not behind anything published. -/
structure Planned (w : HLSWorker) : Prop where
  ids : w.plans.map fst = w.stage.renditions.map AssignmentRendition.id
  ok : ∀ id plan, (id, plan) ∈ w.plans → ∃ i r, w.stage.renditions[i]? = some r ∧ r.id = id
    ∧ PlaylistOK w.stage.epoch (renditionInitFilename w.stage.renditions.length i) plan
  forward : ∀ id plan v, (id, plan) ∈ w.plans → w.stage.windows.get id = some v →
    v.Before plan.window
  ahead : ∀ id plan, (id, plan) ∈ w.plans → ∀ e ∈ w.stage.log, e.path = indexPath id →
    ∃ v, playlistWindow e.content = some v ∧ v.Before plan.window

/-- A published object's name: the initialisation of its rendition, or a
segment that a settled window or the plan at hand has reached. -/
def Named (w : HLSWorker) (path : PublicPath) : Prop :=
  ∃ i r, w.stage.renditions[i]? = some r ∧ r.id = path.dir
    ∧ (path.name = renditionInitFilename w.stage.renditions.length i ∨ ∃ n, IsSegment path.name n
        ∧ ((∃ v, w.stage.windows.get path.dir = some v ∧ n ≤ v.last)
          ∨ .settle ∈ w.todo ∧ ∃ plan, (path.dir, plan) ∈ w.plans ∧ path.name ∈ plan.media))

structure Live (w : HLSWorker) : Prop where
  sorted : w.todo.Pairwise HLSTask.Precedes
  ranked : ∀ t ∈ w.todo, t.rank ≤ 4
  settling : ∀ t ∈ w.todo, t.rank < 3 → .settle ∈ w.todo
  ready : ∀ t ∈ w.todo, ∀ path ∈ t.needs w, w.stage.Known path w.stage.cycle
    ∨ ∃ t' ∈ w.todo, t'.rank < t.rank ∧ t'.target = some path
  copies : ∀ id name, .copy id name ∈ w.todo → ∃ plan, (id, plan) ∈ w.plans ∧ name ∈ plan.media
  playlists : ∀ id plan, .playlist id plan ∈ w.todo → (id, plan) ∈ w.plans
  planned : .settle ∈ w.todo → Planned w
  caught : ∀ path f, w.stage.tree.get path = some f → path.name = hlsIndex →
    (∃ e ∈ w.stage.log, e.path = path ∧ e.content = f.content ∧ e.cycle = w.stage.cycle)
    ∨ ∃ t ∈ w.todo, t.target = some path
  collects : ∀ path, .collect path ∈ w.todo → .settle ∉ w.todo
    ∧ ∀ p, w.stage.published.get path = some p → p.seen + 2 < w.stage.cycle
  named : ∀ path p, w.stage.published.get path = some p → path.name ≠ hlsIndex → Named w path
  kept : ∀ e ∈ w.stage.log, e.path.name ≠ hlsIndex →
    (∃ p, w.stage.published.get e.path = some p) ∨ w.stage.Retired e.path
  settled : .settle ∉ w.todo → ∀ path p, w.stage.published.get path = some p →
    path.name ≠ hlsIndex → w.stage.cycle ≤ p.seen ∨ w.stage.Retired path
  shown : .settle ∉ w.todo → ∀ id, id ≠ "" → ∀ e ∈ w.stage.log, e.path = indexPath id →
    ∃ v v', playlistWindow e.content = some v ∧ w.stage.windows.get id = some v' ∧ v.Before v'

/-- A task with a target has been done: the target is of this cycle. -/
structure Progress (s s' : SourceHLSStage) (path : PublicPath) : Prop where
  renditions : s'.renditions = s.renditions
  epoch : s'.epoch = s.epoch
  windows : s'.windows = s.windows
  cycle : s'.cycle = s.cycle
  known : ∀ q cycle, cycle ≤ s.cycle → s.Known q cycle → s'.Known q cycle
  target : s'.Known path s.cycle
  published : ∀ q p, s'.published.get q = some p → q = path ∨ s.published.get q = some p
  log : ∀ e ∈ s'.log, e ∈ s.log ∨ e.path = path
  older : ∀ e ∈ s.log, e ∈ s'.log
  tree : ∀ q f, s'.tree.get q = some f → q.name = hlsIndex → s.tree.get q = some f
    ∨ q = path ∧ ∃ e ∈ s'.log, e.path = q ∧ e.content = f.content ∧ e.cycle = s.cycle
  renewed : ∀ f, path.name = hlsIndex → s'.tree.get path = some f →
    ∃ e ∈ s'.log, e.path = path ∧ e.content = f.content ∧ e.cycle = s.cycle

namespace Live

variable {w : HLSWorker} {s' : SourceHLSStage} {t : HLSTask} {rest : List HLSTask}
  {path : PublicPath}

theorem advance (h : Live w) (htodo : w.todo = t :: rest) (hrank : t.rank < 3)
    (htarget : t.target = some path) (hp : Progress w.stage s' path)
    (hnamed : path.name ≠ hlsIndex → ∃ plan, (path.dir, plan) ∈ w.plans ∧ path.name ∈ plan.media)
    (hahead : ∀ id plan, (id, plan) ∈ w.plans → path = indexPath id → ∀ e ∈ s'.log, e.path = path →
      ∃ v, playlistWindow e.content = some v ∧ v.Before plan.window) :
    Live { w with stage := s', todo := rest } := by
  have hhead : t ∈ w.todo := htodo ▸ mem_cons_self
  have hmem : ∀ t' ∈ rest, t' ∈ w.todo := fun t' ht' => htodo ▸ mem_cons_of_mem _ ht'
  have hsettle : .settle ∈ rest := by
    have hin := h.settling t hhead hrank
    rw [htodo] at hin
    rcases mem_cons.mp hin with heq | hin
    · rw [← heq] at hrank
      exact absurd hrank (by decide)
    · exact hin
  have hplanned := h.planned (hmem _ hsettle)
  have hsorted := h.sorted
  rw [htodo] at hsorted
  refine ⟨(pairwise_cons.mp hsorted).2, fun t' ht' => h.ranked t' (hmem t' ht'),
    fun _ _ _ => hsettle, fun t' ht' q hq => ?_, fun id name hin => h.copies id name (hmem _ hin),
    fun id plan hin => h.playlists id plan (hmem _ hin), fun _ => ?_, fun q f hf hindex => ?_,
    fun q hq => absurd (hmem _ hsettle) (h.collects q (hmem _ hq)).1, fun q p hq hmedia => ?_,
    fun e he hmedia => ?_, fun hno => absurd hsettle hno, fun hno => absurd hsettle hno⟩
  · have hneeds : q ∈ t'.needs w := by
      cases t' with
      | master =>
          have hq' : q ∈ s'.renditions.map fun r => indexPath r.id := hq
          rwa [hp.renditions] at hq'
      | _ => exact hq
    rw [hp.cycle]
    rcases h.ready t' (hmem t' ht') q hneeds with hknown | ⟨u, hu, hlt, hq⟩
    · exact .inl (hp.known q _ (le_refl _) hknown)
    · rw [htodo] at hu
      rcases mem_cons.mp hu with rfl | hu
      · cases htarget.symm.trans hq
        exact .inl hp.target
      · exact .inr ⟨u, hu, hlt, hq⟩
  · refine ⟨?_, fun id plan hin => ?_, fun id plan v hin => ?_, fun id plan hin e he hpath => ?_⟩
    · rw [hp.renditions]
      exact hplanned.ids
    · rw [hp.renditions, hp.epoch]
      exact hplanned.ok id plan hin
    · rw [hp.windows]
      exact hplanned.forward id plan v hin
    · rcases hp.log e he with hold | heq
      · exact hplanned.ahead id plan hin e hold hpath
      · exact hahead id plan hin (heq.symm.trans hpath) e he heq
  · rw [hp.cycle]
    rcases hp.tree q f hf hindex with hold | ⟨-, hnew⟩
    · rcases h.caught q f hold hindex with ⟨e, he, hfacts⟩ | ⟨u, hu, hq⟩
      · exact .inl ⟨e, hp.older e he, hfacts⟩
      · rw [htodo] at hu
        rcases mem_cons.mp hu with rfl | hu
        · cases htarget.symm.trans hq
          exact .inl (hp.renewed f hindex hf)
        · exact .inr ⟨u, hu, hq⟩
    · exact .inl hnew
  · have hstage : Named { w with stage := s', todo := rest } q
        ↔ ∃ i r, w.stage.renditions[i]? = some r ∧ r.id = q.dir
          ∧ (q.name = renditionInitFilename w.stage.renditions.length i ∨ ∃ n, IsSegment q.name n
              ∧ ((∃ v, w.stage.windows.get q.dir = some v ∧ n ≤ v.last)
                ∨ .settle ∈ rest ∧ ∃ plan, (q.dir, plan) ∈ w.plans ∧ q.name ∈ plan.media)) := by
      unfold Named
      rw [hp.renditions, hp.windows]
    rw [hstage]
    rcases hp.published q p hq with rfl | hold
    · obtain ⟨plan, hin, hname⟩ := hnamed hmedia
      obtain ⟨i, r, hr, hid, hplan⟩ := hplanned.ok _ plan hin
      refine ⟨i, r, hr, hid, (hplan.media _ hname).imp_right fun ⟨n, hn, _, _⟩ => ?_⟩
      exact ⟨n, hn, .inr ⟨hsettle, plan, hin, hname⟩⟩
    · obtain ⟨i, r, hr, hid, hname⟩ := h.named q p hold hmedia
      refine ⟨i, r, hr, hid, hname.imp_right fun ⟨n, hn, hreached⟩ => ⟨n, hn, ?_⟩⟩
      exact hreached.imp_right fun ⟨_, hplan⟩ => ⟨hsettle, hplan⟩
  · rcases hp.log e he with hold | heq
    · rcases h.kept e hold hmedia with ⟨p, hp'⟩ | hretired
      · obtain ⟨p', hp', -⟩ := hp.known e.path 0 (zero_le _) ⟨p, hp', zero_le _⟩
        exact .inl ⟨p', hp'⟩
      · refine .inr ?_
        obtain ⟨n, v, hn, hv, hlt⟩ := hretired
        exact ⟨n, v, hn, (congrArg (·.get e.path.dir) hp.windows).trans hv, hlt⟩
    · obtain ⟨p, hp', -⟩ := hp.target
      exact .inl ⟨p, heq ▸ hp'⟩

end Live

/-! ## Settling -/

theorem get_foldl_windows {plans : List (String × SourceHLSPlaylist)} :
    ∀ {windows : KeyedMap String SourceHLSWindow}, (plans.map fst).Nodup →
      (∀ id plan, (id, plan) ∈ plans →
        (plans.foldl (fun windows (id, plan) => windows.set id plan.window) windows).get id
          = some plan.window)
      ∧ ∀ id, id ∉ plans.map fst →
        (plans.foldl (fun windows (id, plan) => windows.set id plan.window) windows).get id
          = windows.get id := by
  induction plans with
  | nil => exact fun _ => ⟨(fun id plan hin => by cases hin), fun _ _ => rfl⟩
  | cons head plans ih =>
      intro windows hnodup
      obtain ⟨id₀, plan₀⟩ := head
      rw [map_cons, nodup_cons] at hnodup
      obtain ⟨hin, hout⟩ := @ih (windows.set id₀ plan₀.window) hnodup.2
      refine ⟨fun id plan hmem => ?_, fun id hid => ?_⟩
      · rcases mem_cons.mp hmem with heq | hmem
        · obtain ⟨rfl, rfl⟩ := mk.inj heq
          exact (hout id hnodup.1).trans (get_set_self _ _ _)
        · exact hin id plan hmem
      · rw [map_cons, mem_cons, not_or] at hid
        exact (hout id hid.2).trans (get_set_of_ne _ _ hid.1)

section Settle

variable {w : HLSWorker} {rest : List HLSTask}

theorem Planned.windows_get (h : Planned w) (hok : StageOK w.stage) {id : String}
    {plan : SourceHLSPlaylist} (hin : (id, plan) ∈ w.plans) :
    w.settle.windows.get id = some plan.window :=
  (get_foldl_windows (h.ids ▸ hok.distinct)).1 id plan hin

theorem Planned.exists_plan (h : Planned w) {r : AssignmentRendition}
    (hr : r ∈ w.stage.renditions) : ∃ plan, (r.id, plan) ∈ w.plans := by
  have hin : r.id ∈ w.plans.map fst := by
    rw [h.ids]
    exact mem_map_of_mem hr
  obtain ⟨⟨id, plan⟩, hplan, heq⟩ := mem_map.mp hin
  exact ⟨plan, by rw [← heq]; exact hplan⟩

theorem Planned.forward_get (h : Planned w) (hok : StageOK w.stage) {id : String}
    {v : SourceHLSWindow} (hv : w.stage.windows.get id = some v) :
    ∃ v', w.settle.windows.get id = some v' ∧ v.Before v' := by
  by_cases hid : id ∈ w.plans.map fst
  · obtain ⟨⟨id', plan⟩, hin, rfl⟩ := mem_map.mp hid
    exact ⟨plan.window, h.windows_get hok hin, h.forward _ _ v hin hv⟩
  · exact ⟨v, ((get_foldl_windows (h.ids ▸ hok.distinct)).2 id hid).trans hv, .refl v⟩

theorem Planned.retired (h : Planned w) (hok : StageOK w.stage) {path : PublicPath}
    (hretired : w.stage.Retired path) : w.settle.Retired path := by
  obtain ⟨n, v, hn, hv, hlt⟩ := hretired
  obtain ⟨v', hv', hbefore⟩ := h.forward_get hok hv
  exact ⟨n, v', hn, hv', lt_of_lt_of_le hlt hbefore.1⟩

/-- **The windows are settled.** What was not copied or marked in this cycle
is behind them. -/
theorem Live.settled_stage (h : Live w) (hok : StageOK w.stage) (htodo : w.todo = .settle :: rest)
    (a : HLSAnswer) : Live { w with
      stage := w.settle
      todo := rest ++ (a.order.filter w.stage.expired).map .collect } := by
  have hsettle : .settle ∈ w.todo := htodo ▸ mem_cons_self
  have hplanned := h.planned hsettle
  have hsorted := h.sorted
  rw [htodo, pairwise_cons] at hsorted
  have hrest : rest = [] := by
    refine eq_nil_iff_forall_not_mem.mpr fun t ht => ?_
    obtain ⟨hle, hne⟩ := hsorted.1 t ht
    have hle' := h.ranked t (htodo ▸ mem_cons_of_mem _ ht)
    have hne := hne rfl
    cases t with
    | collect path => exact (h.collects path (htodo ▸ mem_cons_of_mem _ ht)).1 hsettle
    | settle => exact hne rfl
    | copy id name => exact absurd hle (by show ¬3 ≤ 0; decide)
    | playlist id plan => exact absurd hle (by show ¬3 ≤ 1; decide)
    | master => exact absurd hle (by show ¬3 ≤ 2; decide)
    | withdraw path => exact absurd hle' (by show ¬5 ≤ 4; decide)
  rw [hrest, nil_append]
  have hcollect : ∀ t ∈ (a.order.filter w.stage.expired).map collect,
      ∃ path, t = .collect path ∧ w.stage.expired path = true := by
    intro t ht
    obtain ⟨path, hpath, rfl⟩ := mem_map.mp ht
    exact ⟨path, rfl, (mem_filter.mp hpath).2⟩
  have hknown : ∀ id plan name, (id, plan) ∈ w.plans → name ∈ plan.media →
      w.stage.Known ⟨id, name⟩ w.stage.cycle := by
    intro id plan name hin hname
    have hneeds : (⟨id, name⟩ : PublicPath) ∈ settle.needs w :=
      mem_flatMap.mpr ⟨(id, plan), hin, mem_map.mpr ⟨name, hname, rfl⟩⟩
    rcases h.ready _ hsettle _ hneeds with hknown | ⟨t, ht, hlt, -⟩
    · exact hknown
    · rw [htodo, hrest, mem_singleton] at ht
      rw [ht] at hlt
      exact absurd hlt (lt_irrefl _)
  refine ⟨?_, fun t ht => ?_, fun t ht hlt => ?_, fun t ht q hq => ?_, fun id name hin => ?_,
    fun id plan hin => ?_, fun hin => ?_, fun q f hf hindex => ?_, fun q hq => ⟨fun hin => ?_, ?_⟩,
    fun q p hp hmedia => ?_, fun e he hmedia => ?_, fun _ q p hp hmedia => ?_,
    fun _ id hid e he hpath => ?_⟩
  · rw [pairwise_map]
    exact pairwise_of_forall fun _ _ => ⟨le_refl _, fun h => by cases h⟩
  · obtain ⟨path, rfl, -⟩ := hcollect t ht
    exact le_refl _
  · obtain ⟨path, rfl, -⟩ := hcollect t ht
    exact absurd hlt (by show ¬4 < 3; decide)
  · obtain ⟨path, rfl, -⟩ := hcollect t ht
    cases hq
  · obtain ⟨path, heq, -⟩ := hcollect _ hin
    cases heq
  · obtain ⟨path, heq, -⟩ := hcollect _ hin
    cases heq
  · obtain ⟨path, heq, -⟩ := hcollect _ hin
    cases heq
  · refine .inl ?_
    rcases h.caught q f hf hindex with hnew | ⟨t, ht, hq⟩
    · exact hnew
    · rw [htodo, hrest, mem_singleton] at ht
      rw [ht] at hq
      cases hq
  · obtain ⟨path, heq, -⟩ := hcollect _ hin
    cases heq
  · intro p hp
    obtain ⟨path, heq, hexpired⟩ := hcollect _ hq
    obtain rfl := collect.inj heq
    rw [SourceHLSStage.expired, show w.stage.published.get q = some p from hp] at hexpired
    exact of_decide_eq_true hexpired
  · obtain ⟨i, r, hr, hid, hname⟩ := h.named q p hp hmedia
    refine ⟨i, r, hr, hid, hname.imp_right fun ⟨n, hn, hreached⟩ => ⟨n, hn, .inl ?_⟩⟩
    rcases hreached with ⟨v, hv, hle⟩ | ⟨-, plan, hin, hmem⟩
    · obtain ⟨v', hv', hbefore⟩ := hplanned.forward_get hok hv
      exact ⟨v', hv', le_trans hle hbefore.2⟩
    · obtain ⟨i', r', -, -, hplan⟩ := hplanned.ok _ plan hin
      refine ⟨plan.window, hplanned.windows_get hok hin, ?_⟩
      rcases hplan.media _ hmem with heq | ⟨n', hn', -, hle⟩
      · exact absurd (heq ▸ hn) init_not_segment
      · exact hn.unique hn' ▸ hle
  · exact (h.kept e he hmedia).imp_right (hplanned.retired hok)
  · obtain ⟨i, r, hr, hid, hname⟩ := h.named q p hp hmedia
    obtain ⟨plan, hin⟩ := hplanned.exists_plan (mem_of_getElem? hr)
    rw [hid] at hin
    have hcurrent : q.name ∈ plan.media → w.stage.cycle ≤ p.seen := by
      intro hmem
      obtain ⟨p', hp', hseen⟩ := hknown _ plan q.name hin hmem
      cases hp.symm.trans hp'
      exact hseen
    obtain ⟨i', r', hr', hid', hplan⟩ := hplanned.ok _ plan hin
    rcases hname with hinit | ⟨n, hn, hreached⟩
    · have hsame : i = i' := by
        have hids : (w.stage.renditions.map AssignmentRendition.id)[i]?
            = (w.stage.renditions.map AssignmentRendition.id)[i']? := by
          rw [getElem?_map, getElem?_map, hr, hr']
          exact congrArg some (hid.trans hid'.symm)
        exact (List.getElem?_inj (by simpa using (List.getElem?_eq_some_iff.mp hr).1)
          hok.distinct).mp hids
      exact .inl (hcurrent (hinit ▸ hsame ▸ hplan.begins))
    · have hle : n ≤ plan.window.last := by
        rcases hreached with ⟨v, hv, hle⟩ | ⟨-, plan', hin', hmem⟩
        · exact le_trans hle (hplanned.forward _ plan v hin hv).2
        · obtain ⟨j, r'', -, -, hplan'⟩ := hplanned.ok _ plan' hin'
          have hsame : plan' = plan := by
            have hnodup : (w.plans.map fst).Nodup := hplanned.ids ▸ hok.distinct
            exact congrArg snd (inj_on_of_nodup_map hnodup hin' hin rfl)
          rcases hplan'.media _ hmem with heq | ⟨n', hn', -, hle⟩
          · exact absurd (heq ▸ hn) init_not_segment
          · exact hsame ▸ hn.unique hn' ▸ hle
      by_cases hfirst : plan.window.first ≤ n
      · exact .inl (hcurrent (hn.2.1 ▸ hplan.segments n hfirst hle))
      · exact .inr ⟨n, plan.window, hn, hplanned.windows_get hok hin, by omega⟩
  · have hindex : e.path.name = hlsIndex := by rw [hpath]; rfl
    obtain ⟨r, hr, hrid⟩ := (hok.dirs e he hindex).resolve_left (by rw [hpath]; exact hid)
    have hrid : r.id = id := by rw [hrid, hpath]; rfl
    obtain ⟨plan, hin⟩ := hplanned.exists_plan hr
    rw [hrid] at hin
    obtain ⟨v, hv, hbefore⟩ := hplanned.ahead id plan hin e he hpath
    exact ⟨v, plan.window, hv, hplanned.windows_get hok hin, hbefore⟩

theorem Live.collected {path : PublicPath} {s' : SourceHLSStage} (h : Live w)
    (htodo : w.todo = .collect path :: rest) (hc : Collected w.stage s' path) :
    Live { w with stage := s', todo := rest } := by
  have hhead : .collect path ∈ w.todo := htodo ▸ mem_cons_self
  have hmem : ∀ t ∈ rest, t ∈ w.todo := fun t ht => htodo ▸ mem_cons_of_mem _ ht
  obtain ⟨hno, hold⟩ := h.collects path hhead
  have hrank : ∀ t ∈ rest, t.rank = 4 := by
    have hsorted := h.sorted
    rw [htodo, pairwise_cons] at hsorted
    intro t ht
    exact le_antisymm (h.ranked t (hmem t ht)) (hsorted.1 t ht).1
  have hcollect : ∀ t ∈ rest, ∃ q, t = .collect q := by
    intro t ht
    have heq := hrank t ht
    cases t with
    | collect q => exact ⟨q, rfl⟩
    | _ => cases heq
  have hsorted := h.sorted
  rw [htodo] at hsorted
  have hpublished : ∀ q p, s'.published.get q = some p →
      q ≠ path ∧ w.stage.published.get q = some p := by
    intro q p hp
    rw [hc.published] at hp
    by_cases hq : q = path
    · rw [hq, get_erase_self] at hp
      cases hp
    · exact ⟨hq, (get_erase_of_ne _ hq).symm.trans hp⟩
  have hretired : ∀ q, w.stage.Retired q → s'.Retired q := by
    intro q ⟨n, v, hn, hv, hlt⟩
    exact ⟨n, v, hn, (congrArg (·.get q.dir) hc.windows).trans hv, hlt⟩
  refine ⟨(pairwise_cons.mp hsorted).2, fun t ht => h.ranked t (hmem t ht),
    fun t ht hlt => ?_, fun t ht q hq => ?_, fun id name hin => h.copies id name (hmem _ hin),
    fun id plan hin => h.playlists id plan (hmem _ hin), fun hin => absurd (hmem _ hin) hno,
    fun q f hf hindex => ?_, fun q hq => ⟨fun hin => hno (hmem _ hin), fun p hp => ?_⟩,
    fun q p hp hmedia => ?_, fun e he hmedia => ?_, fun _ q p hp hmedia => ?_,
    fun _ id hid e he hpath => ?_⟩
  · rw [hrank t ht] at hlt
    exact absurd hlt (by decide)
  · obtain ⟨q', rfl⟩ := hcollect t ht
    cases hq
  · have hq : q ≠ path := by
      rintro rfl
      have hgone := hc.gone
      rw [show s'.tree.get q = some f from hf] at hgone
      cases hgone
    refine .inl ?_
    rw [hc.log, hc.cycle]
    rcases h.caught q f ((hc.others q hq).symm.trans hf) hindex with hnew | ⟨t, ht, htarget⟩
    · exact hnew
    · rw [htodo] at ht
      rcases mem_cons.mp ht with rfl | ht
      · cases htarget
      · obtain ⟨q', rfl⟩ := hcollect t ht
        cases htarget
  · rw [hc.cycle]
    exact (h.collects q (hmem _ hq)).2 p (hpublished q p hp).2
  · obtain ⟨i, r, hr, hid, hname⟩ := h.named q p (hpublished q p hp).2 hmedia
    unfold Named
    rw [hc.renditions, hc.windows]
    refine ⟨i, r, hr, hid, ?_⟩
    rcases hname with hname | ⟨n, hn, hreached | ⟨hin, -⟩⟩
    · exact .inl hname
    · exact .inr ⟨n, hn, .inl hreached⟩
    · exact absurd hin hno
  · have he' : e ∈ w.stage.log := hc.log ▸ he
    rcases h.kept e he' hmedia with ⟨p, hp⟩ | hret
    · by_cases hq : e.path = path
      · have hlate := hold p (hq ▸ hp)
        rcases h.settled hno e.path p hp hmedia with hcurrent | hret
        · omega
        · exact .inr (hretired _ hret)
      · refine .inl ⟨p, ?_⟩
        rw [hc.published, get_erase_of_ne _ hq, hp]
    · exact .inr (hretired _ hret)
  · rw [hc.cycle]
    exact (h.settled hno q p (hpublished q p hp).2 hmedia).imp_right (hretired q)
  · rw [hc.windows]
    exact h.shown hno id hid e (hc.log ▸ he) hpath

end Settle

/-! ## A call begins -/

theorem readPlans_plans {durationOK : List Nat → Bool} {s : SourceHLSStage}
    {read : String → PlaylistRead} : ∀ {rs : List (AssignmentRendition × Nat)}
      {plans : List (String × SourceHLSPlaylist)}, readPlans durationOK s read rs = .plans plans →
    plans.map fst = rs.map (fun r => r.1.id)
    ∧ ∀ id plan, (id, plan) ∈ plans → ∃ r i, (r, i) ∈ rs ∧ r.id = id
      ∧ PlaylistOK s.epoch (renditionInitFilename s.renditions.length i) plan
      ∧ ∀ v, s.windows.get id = some v → v.Before plan.window
  | [], plans, h => by
      obtain rfl := PlansRead.plans.inj h
      exact ⟨rfl, fun id plan hin => by cases hin⟩
  | (r, i) :: rs, plans, h => by
      rw [readPlans] at h
      split at h
      · cases h
      · cases h
      split at h
      · cases h
      next plan hplan =>
      split at h
      · cases h
      next hforward =>
      split at h
      · next plans' hrest =>
          obtain rfl := PlansRead.plans.inj h
          obtain ⟨hids, hfacts⟩ := readPlans_plans hrest
          refine ⟨by rw [map_cons, map_cons, hids], fun id plan' hin => ?_⟩
          rcases mem_cons.mp hin with heq | hin
          · obtain ⟨rfl, rfl⟩ := mk.inj heq
            refine ⟨r, i, mem_cons_self, rfl, epochPlaylist_ok hplan, fun v hv => ?_⟩
            rw [hv, Option.any_some, decide_eq_true_eq, not_or] at hforward
            exact ⟨by omega, by omega⟩
          · obtain ⟨r', i', hmem, hrest⟩ := hfacts id plan' hin
            exact ⟨r', i', mem_cons_of_mem _ hmem, hrest⟩
      · next other hother => exact absurd h (hother plans)

section Publish

variable {plans : List (String × SourceHLSPlaylist)}

theorem mem_publishTasks {t : HLSTask} : t ∈ publishTasks plans ↔
    (∃ id plan name, (id, plan) ∈ plans ∧ name ∈ plan.media ∧ t = .copy id name)
    ∨ (∃ id plan, (id, plan) ∈ plans ∧ t = .playlist id plan) ∨ t = .master ∨ t = .settle := by
  rw [publishTasks, mem_append, mem_append, or_assoc]
  refine or_congr ?_ (or_congr ?_ (by simp))
  · constructor
    · intro h
      obtain ⟨⟨id, plan⟩, hin, ht⟩ := mem_flatMap.mp h
      obtain ⟨name, hname, rfl⟩ := mem_map.mp ht
      exact ⟨id, plan, name, hin, hname, rfl⟩
    · rintro ⟨id, plan, name, hin, hname, rfl⟩
      exact mem_flatMap.mpr ⟨(id, plan), hin, mem_map.mpr ⟨name, hname, rfl⟩⟩
  · constructor
    · intro h
      obtain ⟨⟨id, plan⟩, hin, rfl⟩ := mem_map.mp h
      exact ⟨id, plan, hin, rfl⟩
    · rintro ⟨id, plan, hin, rfl⟩
      exact mem_map.mpr ⟨(id, plan), hin, rfl⟩

theorem publishTasks_sorted : (publishTasks plans).Pairwise HLSTask.Precedes := by
  have hcopies : ∀ t ∈ plans.flatMap fun (id, plan) => plan.media.map (copy id),
      t.rank = 0 := by
    intro t ht
    obtain ⟨⟨id, plan⟩, -, ht⟩ := mem_flatMap.mp ht
    obtain ⟨name, -, rfl⟩ := mem_map.mp ht
    rfl
  have hplaylists : ∀ t ∈ plans.map fun (id, plan) => playlist id plan, t.rank = 1 := by
    intro t ht
    obtain ⟨⟨id, plan⟩, -, rfl⟩ := mem_map.mp ht
    rfl
  have hsame : ∀ (ts : List HLSTask) (k : Nat), k ≠ 3 → (∀ t ∈ ts, t.rank = k) →
      ts.Pairwise HLSTask.Precedes := by
    intro ts k hk hts
    refine pairwise_iff_forall_sublist.mpr fun {t u} hsub => ?_
    have ht := hts t (hsub.subset mem_cons_self)
    have hu := hts u (hsub.subset (mem_cons_of_mem _ mem_cons_self))
    exact ⟨by omega, by omega⟩
  refine pairwise_append.mpr ⟨pairwise_append.mpr ⟨hsame _ 0 (by decide) hcopies,
    hsame _ 1 (by decide) hplaylists, fun t ht u hu => ?_⟩, ?_, fun t ht u hu => ?_⟩
  · rw [HLSTask.Precedes, hcopies t ht, hplaylists u hu]
    decide
  · refine pairwise_pair.mpr ?_
    rw [HLSTask.Precedes]
    decide
  · have hlt : t.rank ≤ 1 := by
      rcases mem_append.mp ht with ht | ht
      · exact (hcopies t ht).symm ▸ zero_le _
      · exact le_of_eq (hplaylists t ht)
    rcases mem_cons.mp hu with rfl | hu
    · exact ⟨le_trans hlt (by decide), fun h3 => absurd hlt (by omega)⟩
    · obtain rfl := mem_singleton.mp hu
      exact ⟨le_trans hlt (by decide), fun h3 => absurd hlt (by omega)⟩

theorem Live.begin {w : HLSWorker} (h : Live w) (hok : StageOK w.stage) (htodo : w.todo = [])
    {durationOK : List Nat → Bool} {read : String → PlaylistRead} (key : List Nat)
    (hplans : readPlans durationOK w.stage read w.stage.renditions.zipIdx = .plans plans) :
    Live { w with
      stage := { w.stage with cycle := w.stage.cycle + 1 }
      key := key
      plans := plans
      todo := publishTasks plans } := by
  obtain ⟨hids, hfacts⟩ := readPlans_plans hplans
  have hsettle : settle ∈ publishTasks plans :=
    mem_publishTasks.mpr (.inr (.inr (.inr rfl)))
  have hno : .settle ∉ w.todo := by rw [htodo]; exact not_mem_nil
  have hzip : w.stage.renditions.zipIdx.map (fun r => r.1.id)
      = w.stage.renditions.map AssignmentRendition.id := by
    have hmap := map_map (f := fst) (g := AssignmentRendition.id)
      (l := w.stage.renditions.zipIdx)
    rw [zipIdx_map_fst] at hmap
    exact hmap.symm
  rw [hzip] at hids
  have hdir : ∀ e ∈ w.stage.log, e.path.name = hlsIndex →
      ∃ t ∈ publishTasks plans, t.target = some e.path := by
    intro e he hindex
    have hpath : e.path = indexPath e.path.dir := by rw [indexPath, ← hindex]
    rcases hok.dirs e he hindex with hdir | ⟨r, hr, hdir⟩
    · exact ⟨.master, mem_publishTasks.mpr (.inr (.inr (.inl rfl))), by
        rw [hpath, hdir]; rfl⟩
    · have hin : r.id ∈ plans.map fst := by
        rw [hids]
        exact mem_map_of_mem hr
      obtain ⟨⟨id, plan⟩, hplan, heq⟩ := mem_map.mp hin
      obtain rfl : id = r.id := heq
      exact ⟨.playlist r.id plan, mem_publishTasks.mpr (.inr (.inl ⟨_, _, hplan, rfl⟩)), by
        rw [hpath, ← hdir]; rfl⟩
  refine ⟨publishTasks_sorted, fun t ht => ?_, fun _ _ _ => hsettle, fun t ht q hq => .inr ?_,
    fun id name hin => ?_, fun id plan hin => ?_, fun _ => ?_, fun q f hf hindex => .inr ?_,
    fun q hq => ?_, fun q p hp hmedia => ?_, h.kept, fun hout => absurd hsettle hout,
    fun hout => absurd hsettle hout⟩
  · rcases mem_publishTasks.mp ht with ⟨id, plan, name, -, -, rfl⟩ | ⟨id, plan, -, rfl⟩ | rfl | rfl
    · exact zero_le _
    · show 1 ≤ 4
      decide
    · decide
    · decide
  · rcases mem_publishTasks.mp ht with ⟨id, plan, name, -, -, rfl⟩ | ⟨id, plan, hin, rfl⟩ | rfl | rfl
    · cases hq
    · obtain ⟨name, hname, rfl⟩ := mem_map.mp hq
      exact ⟨.copy id name, mem_publishTasks.mpr (.inl ⟨id, plan, name, hin, hname, rfl⟩),
        zero_lt_one, rfl⟩
    · obtain ⟨r, hr, rfl⟩ := mem_map.mp hq
      have hin : r.id ∈ plans.map fst := by
        rw [hids]
        exact mem_map_of_mem hr
      obtain ⟨⟨id, plan⟩, hplan, heq⟩ := mem_map.mp hin
      obtain rfl : id = r.id := heq
      exact ⟨.playlist r.id plan, mem_publishTasks.mpr (.inr (.inl ⟨_, _, hplan, rfl⟩)),
        lt_succ_self 1, rfl⟩
    · obtain ⟨⟨id, plan⟩, hin, hmem⟩ := mem_flatMap.mp hq
      obtain ⟨name, hname, rfl⟩ := mem_map.mp hmem
      exact ⟨.copy id name, mem_publishTasks.mpr (.inl ⟨id, plan, name, hin, hname, rfl⟩),
        zero_lt_succ 2, rfl⟩
  · rcases mem_publishTasks.mp hin with ⟨id', plan, name', hplan, hname, heq⟩ | ⟨_, _, _, heq⟩
      | heq | heq
    · obtain ⟨rfl, rfl⟩ := copy.inj heq
      exact ⟨plan, hplan, hname⟩
    · cases heq
    · cases heq
    · cases heq
  · rcases mem_publishTasks.mp hin with ⟨_, _, _, _, _, heq⟩ | ⟨id', plan', hplan, heq⟩ | heq | heq
    · cases heq
    · obtain ⟨rfl, rfl⟩ := playlist.inj heq
      exact hplan
    · cases heq
    · cases heq
  · refine ⟨hids, fun id plan hin => ?_, fun id plan v hin hv => ?_,
      fun id plan hin e he hpath => ?_⟩
    · obtain ⟨r, i, hmem, hid, hplan, -⟩ := hfacts id plan hin
      exact ⟨i, r, mem_zipIdx_iff_getElem?.mp hmem, hid, hplan⟩
    · obtain ⟨-, -, -, -, -, hforward⟩ := hfacts id plan hin
      exact hforward v hv
    · obtain ⟨r, i, hmem, hid, -, hforward⟩ := hfacts id plan hin
      have hproper := hok.proper r (mem_of_getElem? (mem_zipIdx_iff_getElem?.mp hmem))
      obtain ⟨v, v', hv, hv', hbefore⟩ := h.shown hno id (hid ▸ hproper) e he hpath
      exact ⟨v, hv, hbefore.trans (hforward v' hv')⟩
  · obtain ⟨e, he, rfl, -⟩ := hok.content q f hf
    exact hdir e he hindex
  · rcases mem_publishTasks.mp hq with ⟨_, _, _, _, _, heq⟩ | ⟨_, _, _, heq⟩ | heq | heq
    · cases heq
    · cases heq
    · cases heq
    · cases heq
  · obtain ⟨i, r, hr, hid, hname⟩ := h.named q p hp hmedia
    refine ⟨i, r, hr, hid, ?_⟩
    rcases hname with hname | ⟨n, hn, hreached | ⟨hin, -⟩⟩
    · exact .inl hname
    · exact .inr ⟨n, hn, .inl hreached⟩
    · exact absurd hin hno

end Publish

/-! ## The worker -/

structure HLSOK (w : HLSWorker) : Prop where
  stage : StageOK w.stage
  live : w.failed = false → w.stage.closed = false → Live w
  stopped : w.failed = true → w.stage.closed = false → w.todo = []
  closing : w.stage.closed = true → (∀ t ∈ w.todo, ∃ path, t = .withdraw path)
    ∧ ∀ path p, w.stage.published.get path = some p →
      .withdraw path ∈ w.todo ∨ w.cleanupFailed = true

namespace HLSOK

variable {w w' : HLSWorker} {s' : SourceHLSStage} {t : HLSTask} {rest : List HLSTask}
  {path : PublicPath} {content : List Nat}

/-- A worker whose stage is not closed, after a task that went wrong. -/
theorem failing (hstage : StageOK s') (hopen : s'.closed = false) :
    HLSOK { w with stage := s', todo := [], failed := true } where
  stage := hstage
  live := fun h => by cases h
  stopped := fun _ _ => rfl
  closing := fun h => by
    rw [show s'.closed = true from h] at hopen
    cases hopen

theorem going (hstage : StageOK s') (hopen : s'.closed = false)
    (hlive : Live { w with stage := s', todo := rest }) (hfailed : w.failed = false) :
    HLSOK { w with stage := s', todo := rest } where
  stage := hstage
  live := fun _ _ => hlive
  stopped := fun h => by
    rw [show w.failed = true from h] at hfailed
    cases hfailed
  closing := fun h => by
    rw [show s'.closed = true from h] at hopen
    cases hopen

theorem live_of_task (h : HLSOK w) (htodo : w.todo = t :: rest) (ht : t.rank ≤ 4) :
    w.failed = false ∧ w.stage.closed = false ∧ Live w := by
  have hopen : w.stage.closed = false := by
    by_contra hclosed
    obtain ⟨path, rfl⟩ := (h.closing (by simpa using hclosed)).1 t (htodo ▸ mem_cons_self)
    exact absurd ht (by show ¬5 ≤ 4; decide)
  have hrunning : w.failed = false := by
    by_contra hfailed
    have hnil := h.stopped (by simpa using hfailed) hopen
    rw [htodo] at hnil
    cases hnil
  exact ⟨hrunning, hopen, h.live hrunning hopen⟩

theorem progress_committed (h : Committed w.stage s' path content)
    (hrecord : s'.Known path w.stage.cycle) : Progress w.stage s' path := by
  obtain ⟨id, htree⟩ := h.tree
  have hnew : (⟨path, w.stage.cycle, content⟩ : Renamed) ∈ s'.log := by
    rw [h.log]
    exact mem_append_right _ (mem_singleton.mpr rfl)
  have hget : ∀ f, s'.tree.get path = some f → content = f.content := by
    intro f hf
    rw [htree, get_set_self] at hf
    exact congrArg PublicFile.content (Option.some.inj hf)
  refine ⟨h.renditions, h.epoch, h.windows, h.cycle, fun q cycle => StageOK.known_committed h,
    hrecord, fun q p hp => ?_, fun e he => ?_, fun e he => ?_, fun q f hf hindex => ?_,
    fun f _ hf => ⟨_, hnew, rfl, hget f hf, rfl⟩⟩
  · by_cases hq : q = path
    · exact .inl hq
    · exact .inr ((h.others q hq).symm.trans hp)
  · rw [h.log] at he
    exact (mem_append.mp he).imp_right fun hin => by rw [mem_singleton.mp hin]
  · rw [h.log]
    exact mem_append_left _ he
  · by_cases hq : q = path
    · subst hq
      exact .inr ⟨rfl, _, hnew, rfl, hget f hf, rfl⟩
    · rw [htree, get_set_of_ne _ _ hq] at hf
      exact .inl hf

theorem progress_marked {old : SourceHLSPublished}
    (hold : w.stage.published.get path = some old) (hmedia : path.name ≠ hlsIndex) :
    Progress w.stage { w.stage with
      published := w.stage.published.set path { old with seen := w.stage.cycle } } path := by
  refine ⟨rfl, rfl, rfl, rfl, fun q cycle hle ⟨p, hp, hseen⟩ => ?_,
    ⟨_, get_set_self _ _ _, le_refl _⟩, fun q p hp => ?_, fun e he => .inl he,
    fun e he => he, fun q f hf _ => .inl hf, fun f hindex _ => absurd hindex hmedia⟩
  · by_cases hq : q = path
    · subst hq
      exact ⟨_, get_set_self _ _ _, hle⟩
    · exact ⟨p, (get_set_of_ne _ _ hq).trans hp, hseen⟩
  · by_cases hq : q = path
    · exact .inl hq
    · exact .inr ((get_set_of_ne _ _ hq).symm.trans hp)

theorem first_ready (h : Live w) (htodo : w.todo = t :: rest) :
    ∀ q ∈ t.needs w, w.stage.Known q w.stage.cycle := by
  intro q hq
  rcases h.ready t (htodo ▸ mem_cons_self) q hq with hknown | ⟨u, hu, hlt, -⟩
  · exact hknown
  · have hsorted := h.sorted
    rw [htodo] at hsorted hu
    rcases mem_cons.mp hu with rfl | hu
    · exact absurd hlt (lt_irrefl _)
    · exact absurd ((pairwise_cons.mp hsorted).1 u hu).1 (by omega)

theorem copied (h : HLSOK w) {id : String} {name : List Nat}
    (htodo : w.todo = .copy id name :: rest) (a : HLSAnswer) :
    HLSOK (w.finish rest (w.stage.copyMedia id name a)) := by
  obtain ⟨hrunning, hopen, hlive⟩ := h.live_of_task htodo (zero_le _)
  have hhead : .copy id name ∈ w.todo := htodo ▸ mem_cons_self
  have hplanned := hlive.planned (hlive.settling _ hhead (zero_lt_succ 2))
  obtain ⟨plan, hin, hname⟩ := hlive.copies id name hhead
  obtain ⟨i, r, hr, hid, hplan⟩ := hplanned.ok id plan hin
  have hkind := hplan.media name hname
  have hmedia : name ≠ hlsIndex := by
    rcases hkind with heq | ⟨n, hn, -, -⟩
    · rw [heq]
      exact init_ne_index _ _
    · exact hn.ne_index
  have hnamed : name ≠ hlsIndex → ∃ plan, (id, plan) ∈ w.plans ∧ name ∈ plan.media :=
    fun _ => ⟨plan, hin, hname⟩
  have hahead : ∀ {stage : SourceHLSStage} (id' : String) (plan' : SourceHLSPlaylist),
      (id', plan') ∈ w.plans → (⟨id, name⟩ : PublicPath) = indexPath id' → ∀ e ∈ stage.log,
        e.path = (⟨id, name⟩ : PublicPath) →
          ∃ v, playlistWindow e.content = some v ∧ v.Before plan'.window :=
    fun id' plan' _ heq => absurd (congrArg PublicPath.name heq) hmedia
  rcases w.stage.copyMedia_cases id name a with hfail | ⟨old, hold, hmark⟩
      | ⟨hnone, -, s', ok, hcopy, hcommitted, hknown⟩
  · rw [hfail]
    exact failing h.stage hopen
  · rw [hmark]
    exact going (h.stage.marked hold) hopen (hlive.advance htodo (zero_lt_succ 2) rfl
      (progress_marked hold hmedia) hnamed hahead) hrunning
  · -- a name that is not published is new: it is behind no window
    have hfresh : ∀ e ∈ w.stage.log, e.path ≠ ⟨id, name⟩ := by
      intro e he heq
      have hename : e.path.name = name := by rw [heq]
      rcases hlive.kept e he (hename ▸ hmedia) with ⟨p, hp⟩ | ⟨n, v, hn, hv, hlt⟩
      · rw [heq, hnone] at hp
        cases hp
      · rw [heq] at hv
        rw [hename] at hn
        have hforward := hplanned.forward id plan v hin hv
        rcases hkind with hinit | ⟨n', hn', hfirst, -⟩
        · exact absurd (hinit ▸ hn) init_not_segment
        · have hsame := hn.unique hn'
          have := hforward.1
          omega
    have hstage := h.stage.committed hcommitted hopen (fun hindex => absurd hindex hmedia)
      (fun heq => absurd (congrArg PublicPath.name heq) hmedia)
      (fun q hq => by simp [Renamed.needs, hmedia] at hq)
      (fun e he => ⟨fun heq => absurd heq (hfresh e he), fun heq => absurd heq (hfresh e he)⟩)
    have hopen' : s'.closed = false := hcommitted.closed.trans hopen
    rw [hcopy]
    cases ok with
    | false => exact failing hstage hopen'
    | true =>
        exact going hstage hopen' (hlive.advance htodo (zero_lt_succ 2) rfl
          (progress_committed hcommitted (hknown rfl)) hnamed hahead) hrunning

theorem indexed (h : HLSOK w) {id : String} (htodo : w.todo = t :: rest)
    (hrank : t.rank < 3) (htarget : t.target = some (indexPath id)) (a : HLSAnswer)
    (hdir : id = "" ∨ ∃ r ∈ w.stage.renditions, r.id = id)
    (hmaster : id = "" → content = masterText w.stage.renditions)
    (hneeds : ∀ q ∈ needs w.stage.renditions ⟨indexPath id, w.stage.cycle, content⟩,
      q ∈ t.needs w)
    (hplan : id ≠ "" → ∃ plan, (id, plan) ∈ w.plans ∧ playlistWindow content = some plan.window) :
    HLSOK (w.finish rest (w.stage.commit (indexPath id) content content.length a)) := by
  obtain ⟨hrunning, hopen, hlive⟩ := h.live_of_task htodo (by omega)
  have hplanned := hlive.planned (hlive.settling t (htodo ▸ mem_cons_self) hrank)
  have hdirs : ∀ id', indexPath id = indexPath id' → id = id' := fun id' heq =>
    congrArg PublicPath.dir heq
  rcases w.stage.commit_cases (indexPath id) content content.length a with
    hfail | ⟨s', hcommitted, -, hcommit⟩
  · rw [hfail]
    exact failing h.stage hopen
  · have hstage := h.stage.committed hcommitted hopen (fun _ => hdir)
      (fun heq => hmaster (hdirs "" heq)) (fun q hq => first_ready hlive htodo q (hneeds q hq))
      (fun e he => ⟨fun heq => by rw [heq]; rfl, fun heq hproper => by
        rw [show e.path.dir = id by rw [heq]; rfl] at hproper
        obtain ⟨plan, hin, hwindow⟩ := hplan hproper
        obtain ⟨v, hv, hbefore⟩ := hplanned.ahead id plan hin e he heq
        exact ⟨v, plan.window, hv, hwindow, hbefore⟩⟩)
    have hopen' : s'.closed = false := hcommitted.closed.trans hopen
    rcases hcommit with hcommit | ⟨hcommit, hpublished⟩
    · rw [hcommit]
      exact failing hstage hopen'
    · rw [hcommit]
      have hrecord : s'.Known (indexPath id) w.stage.cycle :=
        ⟨_, by rw [hpublished, get_set_self], le_refl _⟩
      refine going hstage hopen' (hlive.advance htodo hrank htarget
        (progress_committed hcommitted hrecord) (fun hmedia => absurd rfl hmedia)
        fun id' plan' hin heq e he hpath => ?_) hrunning
      obtain rfl := hdirs id' heq
      obtain ⟨i, r, hr, hid, -⟩ := hplanned.ok id plan' hin
      have hproper : id ≠ "" := hid ▸ h.stage.proper r (mem_of_getElem? hr)
      rw [hcommitted.log] at he
      rcases mem_append.mp he with hold | hnew
      · exact hplanned.ahead id plan' hin e hold hpath
      · obtain rfl := mem_singleton.mp hnew
        obtain ⟨plan, hin', hwindow⟩ := hplan hproper
        have hnodup : (w.plans.map fst).Nodup := hplanned.ids ▸ h.stage.distinct
        have hsame : plan = plan' :=
          congrArg snd (inj_on_of_nodup_map hnodup hin' hin rfl)
        exact ⟨plan.window, hwindow, hsame ▸ .refl _⟩

theorem settled (h : HLSOK w) (htodo : w.todo = .settle :: rest) (a : HLSAnswer) : HLSOK { w with
      stage := w.settle
      todo := rest ++ (a.order.filter w.stage.expired).map .collect } := by
  obtain ⟨hrunning, hopen, hlive⟩ := h.live_of_task htodo (by show 3 ≤ 4; decide)
  have hs := h.stage
  exact going ⟨hs.distinct, hs.proper, hs.linked, hs.present, hs.content, hs.dirs, hs.master,
    hs.past, hs.follows, hs.retained, hs.recent⟩ hopen (hlive.settled_stage h.stage htodo a) hrunning

theorem collected (h : HLSOK w) (htodo : w.todo = .collect path :: rest) (a : HLSAnswer) :
    HLSOK (w.finish rest (w.stage.collect path a)) := by
  obtain ⟨hrunning, hopen, hlive⟩ := h.live_of_task htodo (le_refl 4)
  have hold := (hlive.collects path (htodo ▸ mem_cons_self)).2
  rcases w.stage.collect_cases path a with hfail | ⟨hnone, hdone⟩ | ⟨-, s', hdone, hc⟩
  · rw [hfail]
    exact failing h.stage hopen
  · rw [hdone]
    refine going h.stage hopen ?_ hrunning
    have hmem : ∀ u ∈ rest, u ∈ w.todo := fun u hu => htodo ▸ mem_cons_of_mem _ hu
    have hno := (hlive.collects path (htodo ▸ mem_cons_self)).1
    have hsorted := hlive.sorted
    rw [htodo] at hsorted
    refine ⟨(pairwise_cons.mp hsorted).2, fun u hu => hlive.ranked u (hmem u hu),
      fun u hu hlt => absurd (hlive.settling u (hmem u hu) hlt) hno, fun u hu q hq => ?_,
      fun id name hin => hlive.copies id name (hmem _ hin),
      fun id plan hin => hlive.playlists id plan (hmem _ hin),
      fun hin => absurd (hmem _ hin) hno, fun q f hf hindex => ?_,
      fun q hq => ⟨fun hin => hno (hmem _ hin), (hlive.collects q (hmem _ hq)).2⟩,
      fun q p hp hmedia => ?_, hlive.kept, fun _ => hlive.settled hno, fun _ => hlive.shown hno⟩
    · rcases hlive.ready u (hmem u hu) q hq with hknown | ⟨v, hv, hlt, hq⟩
      · exact .inl hknown
      · rw [htodo] at hv
        rcases mem_cons.mp hv with rfl | hv
        · cases hq
        · exact .inr ⟨v, hv, hlt, hq⟩
    · rcases hlive.caught q f hf hindex with hnew | ⟨v, hv, hq⟩
      · exact .inl hnew
      · rw [htodo] at hv
        rcases mem_cons.mp hv with rfl | hv
        · cases hq
        · exact .inr ⟨v, hv, hq⟩
    · obtain ⟨i, r, hr, hid, hname⟩ := hlive.named q p hp hmedia
      refine ⟨i, r, hr, hid, hname.imp_right fun ⟨n, hn, hreached⟩ => ⟨n, hn, ?_⟩⟩
      exact hreached.imp_right fun ⟨hin, _⟩ => absurd hin hno
  · rw [hdone]
    exact going (h.stage.collected hc (.inr hold)) (hc.closed.trans hopen)
      (hlive.collected htodo hc) hrunning

theorem withdrawn (h : HLSOK w) (htodo : w.todo = .withdraw path :: rest) (a : HLSAnswer) :
    HLSOK { w with
      stage := (w.stage.collect path a).1
      todo := rest
      cleanupFailed := w.cleanupFailed || !(w.stage.collect path a).2 } := by
  have hclosed : w.stage.closed = true := by
    by_contra hopen
    have hopen : w.stage.closed = false := by simpa using hopen
    cases hfailed : w.failed with
    | true =>
        have hnil := h.stopped hfailed hopen
        rw [htodo] at hnil
        cases hnil
    | false =>
        exact absurd ((h.live hfailed hopen).ranked _ (htodo ▸ mem_cons_self))
          (by show ¬5 ≤ 4; decide)
  obtain ⟨htasks, hleft⟩ := h.closing hclosed
  have hrest : ∀ u ∈ rest, ∃ q, u = .withdraw q := fun u hu =>
    htasks u (htodo ▸ mem_cons_of_mem _ hu)
  have hothers : ∀ q p, q ≠ path → w.stage.published.get q = some p →
      .withdraw q ∈ rest ∨ w.cleanupFailed = true := by
    intro q p hq hp
    refine (hleft q p hp).imp_left fun hin => ?_
    rw [htodo] at hin
    rcases mem_cons.mp hin with heq | hin
    · exact absurd (withdraw.inj heq) hq
    · exact hin
  have hclosing : ∀ {stage : SourceHLSStage} {ok : Bool}, StageOK stage → stage.closed = true →
      (∀ q p, stage.published.get q = some p → q ≠ path ∧ w.stage.published.get q = some p
        ∨ ok = false) →
      HLSOK { w with
        stage := stage, todo := rest, cleanupFailed := w.cleanupFailed || !ok } := by
    intro stage ok hstage hc hsub
    refine ⟨hstage, fun _ hopen => ?_, fun _ hopen => ?_, fun _ => ⟨hrest, fun q p hp => ?_⟩⟩
    · rw [show stage.closed = false from hopen] at hc
      cases hc
    · rw [show stage.closed = false from hopen] at hc
      cases hc
    · rcases hsub q p hp with ⟨hq, hp⟩ | rfl
      · exact (hothers q p hq hp).imp_right fun hfailed => by simp [hfailed]
      · exact .inr (by simp)
  rcases w.stage.collect_cases path a with hfail | ⟨hnone, hdone⟩ | ⟨-, s', hdone, hc⟩
  · rw [hfail]
    exact hclosing h.stage hclosed fun q p hp => .inr rfl
  · rw [hdone]
    refine hclosing h.stage hclosed fun q p hp => .inl ⟨?_, hp⟩
    rintro rfl
    rw [hnone] at hp
    cases hp
  · rw [hdone]
    refine hclosing (h.stage.collected hc (.inl hclosed)) (hc.closed.trans hclosed)
      fun q p hp => .inl ?_
    rw [hc.published] at hp
    by_cases hq : q = path
    · rw [hq, get_erase_self] at hp
      cases hp
    · exact ⟨hq, (get_erase_of_ne _ hq).symm.trans hp⟩

end HLSOK

namespace HLSOK

variable {w w' : HLSWorker} {durationOK : List Nat → Bool}

theorem act (h : HLSOK w) (a : HLSAnswer) : HLSOK (w.act a) := by
  rw [HLSWorker.act]
  split
  · exact h
  · next id name rest htodo => exact h.copied htodo a
  · next id plan rest htodo =>
      obtain ⟨-, -, hlive⟩ := h.live_of_task htodo (by show 1 ≤ 4; decide)
      have hhead : .playlist id plan ∈ w.todo := htodo ▸ mem_cons_self
      have hin := hlive.playlists id plan hhead
      have hplanned := hlive.planned (hlive.settling _ hhead (by show 1 < 3; decide))
      obtain ⟨i, r, hr, hid, hplan⟩ := hplanned.ok id plan hin
      have hproper : id ≠ "" := hid ▸ h.stage.proper r (mem_of_getElem? hr)
      refine h.indexed htodo (by show 1 < 3; decide) rfl a
        (.inr ⟨r, mem_of_getElem? hr, hid⟩) (fun heq => absurd heq hproper) (fun q hq => ?_)
        fun _ => ⟨plan, hin, hplan.window⟩
      rw [needs_playlist rfl hproper] at hq
      obtain ⟨name, hname, rfl⟩ := mem_map.mp hq
      exact mem_map.mpr ⟨name, hplan.references name hname, rfl⟩
  · next rest htodo =>
      refine h.indexed htodo (by show 2 < 3; decide) rfl a (.inl rfl) (fun _ => rfl)
        (fun q hq => ?_) fun hproper => absurd rfl hproper
      rwa [needs_master rfl] at hq
  · next rest htodo => exact h.settled htodo a
  · next path rest htodo => exact h.collected htodo a
  · next path rest htodo => exact h.withdrawn htodo a

theorem publish (h : HLSOK w) (a : PublishAnswer) (hgoing : w.failed = false) :
    HLSOK (w.publish durationOK a) := by
  rw [HLSWorker.publish]
  dsimp only
  split
  · exact h
  next hidle =>
  have htodo : w.todo = [] := by simpa using hidle
  have hfailed : HLSOK { w with failed := true } := by
    refine ⟨h.stage, (fun hf => by cases hf), fun _ _ => htodo, fun hclosed => ?_⟩
    exact h.closing hclosed
  split
  · exact hfailed
  next hdenied =>
  have hopen : w.stage.closed = false := by
    by_contra hclosed
    exact hdenied (.inl (by simpa using hclosed))
  split
  · exact h
  · exact hfailed
  · next plans hplans =>
      split
      · exact h
      · have hlive := h.live hgoing hopen
        have hs := h.stage
        refine ⟨⟨hs.distinct, hs.proper, hs.linked, hs.present, hs.content, hs.dirs, hs.master,
          fun e he => le_succ_of_le (hs.past e he), hs.follows, fun _ e he q hq => ?_,
          fun _ q f hf hindex => ?_⟩, fun _ _ => hlive.begin hs htodo _ hplans,
          fun hf => ?_, fun hclosed => ?_⟩
        · exact (hs.retained hopen e he q hq).imp_right fun hlt => lt_succ_of_lt hlt
        · rcases hlive.caught q f hf hindex with ⟨e, he, hpath, hcontent, hcycle⟩ | ⟨t, ht, -⟩
          · exact ⟨e, he, hpath, hcontent, le_of_eq (congrArg (· + 1) hcycle.symm)⟩
          · rw [htodo] at ht
            cases ht
        · rw [show w.failed = true from hf] at hgoing
          cases hgoing
        · rw [show w.stage.closed = true from hclosed] at hopen
          cases hopen

theorem invalidate (h : HLSOK w) {order : List PublicPath}
    (horder : order.Perm w.stage.published.keys) : HLSOK (w.invalidate order) := by
  rw [HLSWorker.invalidate]
  split
  · exact h
  · have hs := h.stage
    refine ⟨⟨hs.distinct, hs.proper, hs.linked, hs.present, hs.content, hs.dirs, hs.master,
      hs.past, hs.follows, (fun hc => by cases hc), (fun hc => by cases hc)⟩,
      (fun _ hc => by cases hc), (fun _ hc => by cases hc), fun _ => ⟨fun t ht => ?_, fun q p hp => ?_⟩⟩
    · obtain ⟨q, -, rfl⟩ := mem_map.mp ht
      exact ⟨q, rfl⟩
    · exact .inl (mem_map_of_mem (horder.mem_iff.mpr (mem_keys_iff.mpr ⟨p, hp⟩)))

theorem next {e : HLSWorker.Event} (h : HLSOK w)
    (hstep : Guarded (HLSWorker.Step durationOK) HLSWorker.Stopping w e w') : HLSOK w' := by
  obtain ⟨⟨hordered, rfl⟩, hgoing⟩ := hstep
  cases e with
  | publish a => exact h.publish a hgoing
  | act a => exact h.act a
  | invalidate order => exact h.invalidate hordered

end HLSOK

theorem start_ok {epoch maxBytes : Nat} {renditions : List AssignmentRendition} {valid : Bool}
    {s : SourceHLSStage} (h : newSourceHLSStage epoch renditions maxBytes valid = some s) :
    HLSOK (.start s) := by
  rw [newSourceHLSStage] at h
  split_ifs at h with hdenied
  cases h
  have hdistinct : (renditions.map AssignmentRendition.id).Nodup := by
    by_contra hno
    exact hdenied (by simp [hno])
  have hproper : ∀ r ∈ renditions, r.id ≠ "" := by
    intro r hr hid
    have hall : (renditions.map AssignmentRendition.id).all
        (fun id => id = "low" ∨ id = "medium" ∨ id = "high") = true := by
      by_contra hno
      exact hdenied (by simp only [hno]; simp)
    have := of_decide_eq_true (all_eq_true.mp hall r.id (mem_map_of_mem hr))
    rw [hid] at this
    exact absurd this (by decide)
  have htree : ∀ (path : PublicPath) (f : PublicFile),
      (empty : KeyedMap PublicPath PublicFile).get path ≠ some f := by
    intro path f hf
    cases hf
  have hpublished : ∀ (path : PublicPath) (p : SourceHLSPublished),
      (empty : KeyedMap PublicPath SourceHLSPublished).get path ≠ some p := by
    intro path p hp
    cases hp
  refine ⟨⟨hdistinct, hproper, fun path f hf => absurd hf (htree path f),
    fun path p hp => absurd hp (hpublished path p), fun path f hf => absurd hf (htree path f),
    (fun e he => by cases he), (fun e he => by cases he), (fun e he => by cases he), .nil,
    (fun _ e he => by cases he), fun _ path f hf => absurd hf (htree path f)⟩,
    fun _ _ => ⟨.nil, (fun t ht => by cases ht), (fun t ht => by cases ht),
      (fun t ht => by cases ht), (fun id name hin => by cases hin), (fun id plan hin => by cases hin),
      (fun hin => by cases hin), fun path f hf => absurd hf (htree path f),
      (fun path hin => by cases hin), fun path p hp => absurd hp (hpublished path p),
      (fun e he => by cases he), fun _ path p hp => absurd hp (hpublished path p),
      (fun _ id hid e he => by cases he)⟩, (fun hf => by cases hf), (fun hc => by cases hc)⟩

/-- **The public tree is self-consistent.** In runs whose callers stop at the
first error of `Publish`: until the stage is invalidated, every playlist
refers to files that are there, and the master to the playlists; no object is
renamed to twice, and the windows of a rendition's playlists follow each
other; what a playlist lists is there for two further cycles; and after an
`Invalidate` without error nothing is left that was recorded. -/
theorem public_tree {durationOK : List Nat → Bool} {epoch maxBytes : Nat}
    {renditions : List AssignmentRendition} {valid : Bool} {s₀ : SourceHLSStage}
    {es : List HLSWorker.Event} {w : HLSWorker}
    (hnew : newSourceHLSStage epoch renditions maxBytes valid = some s₀)
    (hp : Path (Guarded (HLSWorker.Step durationOK) HLSWorker.Stopping) (.start s₀) es w) :
    (w.stage.closed = false → ∀ id f, id ≠ "" → w.stage.tree.get (indexPath id) = some f →
      ∀ name ∈ references f.content, ∃ g, w.stage.tree.get ⟨id, name⟩ = some g)
    ∧ (w.stage.closed = false → ∀ f, w.stage.tree.get (indexPath "") = some f →
      f.content = masterText w.stage.renditions
        ∧ ∀ r ∈ w.stage.renditions, ∃ g, w.stage.tree.get (indexPath r.id) = some g)
    ∧ w.stage.log.Pairwise Renamed.Follows
    ∧ (∀ path f, w.stage.tree.get path = some f →
      ∃ e ∈ w.stage.log, e.path = path ∧ e.content = f.content)
    ∧ (w.stage.closed = false → ∀ id e, id ≠ "" → e ∈ w.stage.log → e.path = indexPath id →
      w.stage.cycle ≤ e.cycle + 2 →
        ∀ name ∈ references e.content, ∃ g, w.stage.tree.get ⟨id, name⟩ = some g)
    ∧ (w.stage.closed = true → w.todo = [] → w.cleanupFailed = false →
      ∀ path f, w.stage.tree.get path = some f → path ∈ w.stage.unrecorded) := by
  have hok : HLSOK w := hp.inv (fun hstep hok => hok.next hstep) (start_ok hnew)
  have hs := hok.stage
  have hhere : w.stage.closed = false → ∀ e ∈ w.stage.log, w.stage.cycle ≤ e.cycle + 2 →
      ∀ q ∈ e.needs w.stage.renditions, ∃ g, w.stage.tree.get q = some g := by
    intro hopen e he hcycle q hq
    rcases hs.retained hopen e he q hq with ⟨p, hp, -⟩ | hlate
    · exact hs.present q p hp
    · omega
  have hlisted : ∀ {id : String} {e : Renamed}, id ≠ "" → e.path = indexPath id →
      ∀ name ∈ references e.content, ⟨id, name⟩ ∈ e.needs w.stage.renditions := by
    intro id e hid hpath name hname
    rw [needs_playlist hpath hid]
    exact mem_map.mpr ⟨name, hname, rfl⟩
  refine ⟨fun hopen id f hid hf name hname => ?_, fun hopen f hf => ?_, hs.follows, hs.content,
    fun hopen id e hid he hpath hcycle name hname => ?_, fun hclosed htodo hclean path f hf => ?_⟩
  · obtain ⟨e, he, hpath, hcontent, hcycle⟩ := hs.recent hopen _ f hf rfl
    rw [← hcontent] at hname
    exact hhere hopen e he (by omega) _ (hlisted hid hpath name hname)
  · obtain ⟨e, he, hpath, hcontent, hcycle⟩ := hs.recent hopen _ f hf rfl
    refine ⟨hcontent.symm.trans (hs.master e he hpath), fun r hr => ?_⟩
    refine hhere hopen e he (by omega) _ ?_
    rw [needs_master hpath]
    exact mem_map.mpr ⟨r, hr, rfl⟩
  · exact hhere hopen e he hcycle _ (hlisted hid hpath name hname)
  · rcases hs.linked path f hf with ⟨p, hp⟩ | hunrecorded
    · rcases (hok.closing hclosed).2 path p hp with hin | hfailed
      · rw [htodo] at hin
        cases hin
      · rw [hclean] at hfailed
        cases hfailed
    · exact hunrecorded

/-! ### Samples -/

namespace HLSWorker

instance (w : HLSWorker) (e : Event) : Decidable (w.Ordered e) := by
  cases e with
  | publish a => exact inferInstanceAs (Decidable True)
  | act a => exact inferInstanceAs (Decidable (_ → _))
  | invalidate order => exact inferInstanceAs (Decidable (order.Perm _))

instance (w : HLSWorker) (e : Event) : Decidable (w.Stopping e) := by
  cases e with
  | publish a => exact inferInstanceAs (Decidable (w.failed = false))
  | act a => exact inferInstanceAs (Decidable True)
  | invalidate order => exact inferInstanceAs (Decidable True)

/-- The events are steps of a run, and callers that stop make them. -/
def admissible (durationOK : List Nat → Bool) : HLSWorker → List Event → Bool × Bool
  | _, [] => (true, true)
  | w, e :: es =>
      let rest := admissible durationOK (w.next durationOK e) es
      (decide (w.Ordered e) && rest.1, decide (w.Stopping e) && rest.2)

def after (durationOK : List Nat → Bool) (w : HLSWorker) (es : List Event) : HLSWorker :=
  es.foldl (fun w e => w.next durationOK e) w

theorem path_of_admissible {durationOK : List Nat → Bool} : ∀ {es : List Event} {w : HLSWorker},
    (w.admissible durationOK es).1 = true → Path (Step durationOK) w es (w.after durationOK es)
      ∧ ((w.admissible durationOK es).2 = true →
        Path (Guarded (Step durationOK) Stopping) w es (w.after durationOK es))
  | [], w, _ => ⟨.nil w, fun _ => .nil w⟩
  | e :: es, w, h => by
      obtain ⟨hordered, hrest⟩ := Bool.and_eq_true_iff.mp h
      obtain ⟨hpath, hguarded⟩ := path_of_admissible hrest
      refine ⟨.cons ⟨of_decide_eq_true hordered, rfl⟩ hpath, fun hall => ?_⟩
      obtain ⟨hstopping, hrest⟩ := Bool.and_eq_true_iff.mp hall
      exact .cons ⟨⟨of_decide_eq_true hordered, rfl⟩, of_decide_eq_true hstopping⟩ (hguarded hrest)

def sampleRenditions : List AssignmentRendition := [⟨"low", 320, 180, 400000, 64000⟩]

def sampleStage : SourceHLSStage :=
  ⟨0, sampleRenditions, .empty, .empty, [], 0, 1048576, false, .empty, [], []⟩

/-- Two seconds. -/
def sampleDuration (value : List Nat) : Bool := value = utf8 "2.0"

def samplePlaylist (n : Nat) : List Nat :=
  utf8 "#EXTM3U\n#EXT-X-TARGETDURATION:2\n#EXT-X-MEDIA-SEQUENCE:" ++ Json.digits n
    ++ utf8 "\n#EXT-X-MAP:URI=\"init.mp4\"\n#EXTINF:2.0,\n" ++ segmentName n ++ [10]

def samplePublish (n : Nat) : Event := .publish ⟨true, true, fun _ => .text (samplePlaylist n)⟩

/-- Every operation goes well on a private file of two bytes. -/
def sampleAnswer (id : Nat) : HLSAnswer :=
  ⟨true, true, true, true, id, true, true, some ⟨0, 2, 0, true⟩, true, [7, 8], true, true, []⟩

def sampleSegment (n : Nat) : PublicPath := ⟨"low", segmentName n⟩

def sampleInit : PublicPath := ⟨"low", utf8 "init.mp4"⟩

/-- One cycle that goes well. -/
def firstCycle : List Event :=
  [samplePublish 0, .act (sampleAnswer 1), .act (sampleAnswer 2), .act (sampleAnswer 3),
    .act (sampleAnswer 4),
    .act { sampleAnswer 5 with
      order := [indexPath "", indexPath "low", sampleSegment 0, sampleInit] }]

/-- Then one that fails at the master. -/
def failingCycle : List Event :=
  [samplePublish 2, .act (sampleAnswer 6), .act (sampleAnswer 7), .act (sampleAnswer 8),
    .act { sampleAnswer 9 with renamed := false }]

def sampleAfter (es : List Event) : HLSWorker := (start sampleStage).after sampleDuration es

theorem public_tree_sample :
    ∃ f, (sampleAfter firstCycle).stage.tree.get (indexPath "low") = some f
      ∧ references f.content = [utf8 "init.mp4", segmentName 0]
      ∧ ∃ g, (sampleAfter firstCycle).stage.tree.get (sampleSegment 0) = some g := by
  have hordered : ((start sampleStage).admissible sampleDuration firstCycle).1 = true := by
    decide +kernel
  have hpath : Path (Guarded (Step sampleDuration) Stopping) (start sampleStage) firstCycle
      (sampleAfter firstCycle) := (path_of_admissible hordered).2 (by decide)
  have hnew : newSourceHLSStage 0 sampleRenditions 1048576 true = some sampleStage := by
    rfl
  have hshown : ((sampleAfter firstCycle).stage.tree.get (indexPath "low")).map
      (fun f => references f.content) = some [utf8 "init.mp4", segmentName 0] := by decide +kernel
  obtain ⟨f, hf, hreferences⟩ := Option.map_eq_some_iff.mp hshown
  refine ⟨f, hf, hreferences, ?_⟩
  have hopen : (sampleAfter firstCycle).stage.closed = false := by decide +kernel
  have hlisted : segmentName 0 ∈ references f.content := by
    rw [hreferences]
    exact mem_cons_of_mem _ (mem_singleton.mpr rfl)
  exact (public_tree hnew hpath).1 hopen "low" f (by decide) hf (segmentName 0) hlisted

/-- A caller that goes on after a `Publish` that failed at the master shows a
window behind the one before; and while `Invalidate` removes the files a
playlist that is still there refers to a segment that is gone. -/
theorem window_moves_back : Path (Step sampleDuration) (start sampleStage)
      (firstCycle ++ failingCycle ++ [samplePublish 1, .act (sampleAnswer 10),
        .act (sampleAnswer 11), .act (sampleAnswer 12)])
      (sampleAfter (firstCycle ++ failingCycle ++ [samplePublish 1, .act (sampleAnswer 10),
        .act (sampleAnswer 11), .act (sampleAnswer 12)]))
    ∧ ((sampleAfter (firstCycle ++ failingCycle)).stage.tree.get (indexPath "low")).bind
      (fun f => playlistWindow f.content) = some ⟨2, 2⟩
    ∧ ((sampleAfter (firstCycle ++ failingCycle ++ [samplePublish 1, .act (sampleAnswer 10),
        .act (sampleAnswer 11), .act (sampleAnswer 12)])).stage.tree.get (indexPath "low")).bind
      (fun f => playlistWindow f.content) = some ⟨1, 1⟩
    ∧ Path (Step sampleDuration) (start sampleStage)
      (firstCycle ++ [.invalidate [sampleSegment 0, sampleInit, indexPath "low", indexPath ""],
        .act (sampleAnswer 6)])
      (sampleAfter (firstCycle ++ [.invalidate [sampleSegment 0, sampleInit, indexPath "low",
        indexPath ""], .act (sampleAnswer 6)]))
    ∧ ((sampleAfter (firstCycle ++ [.invalidate [sampleSegment 0, sampleInit, indexPath "low",
        indexPath ""], .act (sampleAnswer 6)])).stage.tree.get (indexPath "low")).map
      (fun f => references f.content) = some [utf8 "init.mp4", segmentName 0]
    ∧ (sampleAfter (firstCycle ++ [.invalidate [sampleSegment 0, sampleInit, indexPath "low",
        indexPath ""], .act (sampleAnswer 6)])).stage.tree.get (sampleSegment 0) = none := by
  refine ⟨(path_of_admissible (by decide +kernel)).1, by decide +kernel, by decide +kernel,
    (path_of_admissible (by decide +kernel)).1, by decide +kernel, by decide +kernel⟩

end HLSWorker

end Packager

end WebrtcMinimize
