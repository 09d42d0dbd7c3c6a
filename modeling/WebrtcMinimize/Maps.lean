import Mathlib.Data.List.Nodup
import Mathlib.Data.List.Perm.Subperm

/-!
# Insertion-ordered maps

A map whose entries keep the order their keys came in: storing under a key
that is there replaces its value in place, storing under a new one appends.
No key occurs twice, which the type carries. `get_set` is the one law a
proof about a keyed store rests on: an operation on one key shows at that
key and nowhere else.

A key may be several texts joined with a separator; `joined_injective` is
the condition under which no two lists of texts make the same key.
-/

structure KeyedMap (κ ν : Type) where
  entries : List (κ × ν)
  nodup : (entries.map Prod.fst).Nodup

namespace KeyedMap

open List

variable {κ ν : Type} [DecidableEq κ]

def empty : KeyedMap κ ν := ⟨[], nodup_nil⟩

def get (m : KeyedMap κ ν) (k : κ) : Option ν := m.entries.lookup k

/-- Store a value in a list of entries. -/
def put (k : κ) (v : ν) : List (κ × ν) → List (κ × ν)
  | [] => [(k, v)]
  | (l, w) :: es => if l = k then (k, v) :: es else (l, w) :: put k v es

theorem mem_put_keys {k l : κ} {v : ν} : ∀ {es : List (κ × ν)},
    l ∈ (put k v es).map Prod.fst → l = k ∨ l ∈ es.map Prod.fst
  | [], h => by simpa [put] using h
  | (l', w) :: es, h => by
      rw [put] at h
      split at h
      · rw [map_cons, mem_cons] at h
        exact h.imp_right (mem_cons_of_mem _)
      · rw [map_cons, mem_cons] at h
        rcases h with rfl | h
        · exact .inr mem_cons_self
        · exact (mem_put_keys h).imp_right (mem_cons_of_mem _)

theorem nodup_put {k : κ} {v : ν} : ∀ {es : List (κ × ν)},
    (es.map Prod.fst).Nodup → ((put k v es).map Prod.fst).Nodup
  | [], _ => by simp [put]
  | (l, w) :: es, h => by
      rw [map_cons, nodup_cons] at h
      rw [put]
      split
      · rename_i hl
        rw [map_cons, nodup_cons]
        exact ⟨hl ▸ h.1, h.2⟩
      · rename_i hl
        rw [map_cons, nodup_cons]
        refine ⟨fun hmem => ?_, nodup_put h.2⟩
        rcases mem_put_keys hmem with heq | hmem
        · exact hl heq
        · exact h.1 hmem

def set (m : KeyedMap κ ν) (k : κ) (v : ν) : KeyedMap κ ν :=
  ⟨put k v m.entries, nodup_put m.nodup⟩

theorem lookup_entry (k l : κ) (v : ν) (es : List (κ × ν)) :
    ((k, v) :: es).lookup l = if l = k then some v else es.lookup l := by
  by_cases h : l = k
  · rw [h, lookup_cons_self, if_pos rfl]
  · rw [lookup_cons, if_neg h, beq_eq_false_iff_ne.mpr h]

theorem lookup_put (k l : κ) (v : ν) : ∀ es : List (κ × ν),
    (put k v es).lookup l = if l = k then some v else es.lookup l
  | [] => by rw [put, lookup_entry]
  | (l', w) :: es => by
      rw [put]
      split
      · rename_i hl
        rw [lookup_entry, lookup_entry, hl]
        split <;> rfl
      · rename_i hl
        rw [lookup_entry, lookup_entry, lookup_put k l v es]
        by_cases h : l = k
        · rw [if_pos h, if_pos h, if_neg (fun heq => hl (heq.symm.trans h))]
        · rw [if_neg h, if_neg h]

@[simp] theorem get_empty (k : κ) : (empty : KeyedMap κ ν).get k = none := rfl

theorem get_set (m : KeyedMap κ ν) (k l : κ) (v : ν) :
    (m.set k v).get l = if l = k then some v else m.get l :=
  lookup_put k l v m.entries

@[simp] theorem get_set_self (m : KeyedMap κ ν) (k : κ) (v : ν) : (m.set k v).get k = some v := by
  rw [get_set, if_pos rfl]

variable {k : κ}

theorem get_set_some {m : KeyedMap κ ν} {k l : κ} {v w : ν} (h : (m.set k v).get l = some w) :
    l = k ∧ v = w ∨ l ≠ k ∧ m.get l = some w := by
  rw [get_set] at h
  split at h
  · rename_i heq
    exact .inl ⟨heq, Option.some.inj h⟩
  · rename_i hne
    exact .inr ⟨hne, h⟩

theorem get_set_of_ne (m : KeyedMap κ ν) {l : κ} (v : ν) (h : l ≠ k) :
    (m.set k v).get l = m.get l := by
  rw [get_set, if_neg h]

theorem put_put (k : κ) (v w : ν) : ∀ es : List (κ × ν), put k w (put k v es) = put k w es
  | [] => by rw [put, put, put, if_pos rfl]
  | (l, u) :: es => by
      by_cases h : l = k
      · rw [put, if_pos h, put, if_pos rfl, put, if_pos h]
      · rw [put, if_neg h, put, if_neg h, put, if_neg h, put_put k v w es]

theorem set_set (m : KeyedMap κ ν) (k : κ) (v w : ν) : (m.set k v).set k w = m.set k w := by
  simp only [set, put_put]

/-! ## Removing -/

/-- The entries with the property, in order. -/
def keep (m : KeyedMap κ ν) (p : κ → ν → Bool) : KeyedMap κ ν where
  entries := m.entries.filter fun e => p e.1 e.2
  nodup := m.nodup.sublist (filter_sublist.map Prod.fst)

def erase (m : KeyedMap κ ν) (k : κ) : KeyedMap κ ν := m.keep fun l _ => decide (l ≠ k)

theorem mem_of_lookup {k : κ} {v : ν} : ∀ {es : List (κ × ν)}, es.lookup k = some v → (k, v) ∈ es
  | [], h => by cases h
  | (l, w) :: es, h => by
      rw [lookup_entry] at h
      split at h
      · rename_i hk
        rw [hk, Option.some.inj h]
        exact mem_cons_self
      · exact mem_cons_of_mem _ (mem_of_lookup h)

theorem lookup_of_mem {k : κ} {v : ν} : ∀ {es : List (κ × ν)},
    (es.map Prod.fst).Nodup → (k, v) ∈ es → es.lookup k = some v
  | [], _, h => absurd h not_mem_nil
  | (l, w) :: es, hnodup, h => by
      rw [map_cons, nodup_cons] at hnodup
      rw [lookup_entry]
      rcases mem_cons.mp h with heq | hmem
      · obtain ⟨rfl, rfl⟩ := Prod.mk.injEq .. ▸ heq
        rw [if_pos rfl]
      · have hkey : k ∈ es.map Prod.fst := mem_map.mpr ⟨(k, v), hmem, rfl⟩
        have hne : k ≠ l := fun hk => hnodup.1 (hk ▸ hkey)
        rw [if_neg hne]
        exact lookup_of_mem hnodup.2 hmem

variable {m : KeyedMap κ ν} {v : ν}

/-- What the map holds is what its entries say. -/
theorem get_eq_some_iff : m.get k = some v ↔ (k, v) ∈ m.entries :=
  ⟨mem_of_lookup, lookup_of_mem m.nodup⟩

theorem get_keep_eq_some_iff {p : κ → ν → Bool} :
    (m.keep p).get k = some v ↔ m.get k = some v ∧ p k v = true := by
  rw [get_eq_some_iff, get_eq_some_iff]
  exact mem_filter

theorem get_erase (m : KeyedMap κ ν) (k l : κ) :
    (m.erase k).get l = if l = k then none else m.get l := by
  ext v
  rw [erase, get_keep_eq_some_iff]
  split <;> simp [*]

@[simp] theorem get_erase_self (m : KeyedMap κ ν) (k : κ) : (m.erase k).get k = none := by
  rw [get_erase, if_pos rfl]

theorem get_erase_of_ne (m : KeyedMap κ ν) {l : κ} (h : l ≠ k) : (m.erase k).get l = m.get l := by
  rw [get_erase, if_neg h]

theorem lookup_mapped {ν' : Type} (f : κ → ν → ν') (k : κ) : ∀ es : List (κ × ν),
    (es.map fun e => (e.1, f e.1 e.2)).lookup k = (es.lookup k).map (f k)
  | [] => rfl
  | (l, w) :: es => by
      rw [map_cons, lookup_entry, lookup_entry, lookup_mapped f k es]
      split
      · rename_i hk
        rw [hk, Option.map_some]
      · rfl

/-- The map with every value replaced. -/
def mapValues {ν' : Type} (m : KeyedMap κ ν) (f : κ → ν → ν') : KeyedMap κ ν' where
  entries := m.entries.map fun e => (e.1, f e.1 e.2)
  nodup := by
    rw [map_map]
    exact m.nodup

theorem get_mapValues {ν' : Type} (m : KeyedMap κ ν) (f : κ → ν → ν') (k : κ) :
    (m.mapValues f).get k = (m.get k).map (f k) :=
  lookup_mapped f k m.entries

def keys (m : KeyedMap κ ν) : List κ := m.entries.map Prod.fst

theorem mem_keys_iff : k ∈ m.keys ↔ ∃ v, m.get k = some v := by
  simp only [keys, mem_map, Prod.exists, exists_and_right, exists_eq_right, get_eq_some_iff]

def values (m : KeyedMap κ ν) : List ν := m.entries.map Prod.snd

theorem mem_values_iff : v ∈ m.values ↔ ∃ k, m.get k = some v := by
  simp only [values, mem_map, Prod.exists, exists_eq_right, get_eq_some_iff]

theorem values_put_of_none {k : κ} {v : ν} : ∀ {es : List (κ × ν)}, es.lookup k = none →
    (put k v es).map Prod.snd = es.map Prod.snd ++ [v]
  | [], _ => rfl
  | (l, w) :: es, h => by
      rw [lookup_entry] at h
      split at h
      · cases h
      · rename_i hne
        rw [put, if_neg (Ne.symm hne), map_cons, map_cons, values_put_of_none h,
          cons_append]

theorem keys_put_of_none {k : κ} {v : ν} : ∀ {es : List (κ × ν)}, es.lookup k = none →
    (put k v es).map Prod.fst = es.map Prod.fst ++ [k]
  | [], _ => rfl
  | (l, w) :: es, h => by
      rw [lookup_entry] at h
      split at h
      · cases h
      · rename_i hne
        rw [put, if_neg (Ne.symm hne), map_cons, map_cons, keys_put_of_none h,
          cons_append]

theorem keys_put_of_some {k : κ} {v w : ν} : ∀ {es : List (κ × ν)}, es.lookup k = some w →
    (put k v es).map Prod.fst = es.map Prod.fst
  | [], h => by cases h
  | (l, u) :: es, h => by
      rw [lookup_entry] at h
      split at h
      · rename_i heq
        rw [put, if_pos heq.symm, map_cons, map_cons, heq]
      · rename_i hne
        rw [put, if_neg (Ne.symm hne), map_cons, map_cons, keys_put_of_some h]

theorem keys_set_of_none (h : m.get k = none) :
    (m.set k v).keys = m.keys ++ [k] := keys_put_of_none h

theorem keys_set_of_some {w : ν} (h : m.get k = some w) :
    (m.set k v).keys = m.keys := keys_put_of_some h

theorem keys_erase_sublist (m : KeyedMap κ ν) (k : κ) : (m.erase k).keys.Sublist m.keys :=
  filter_sublist.map Prod.fst

/-- A new key's value comes last. -/
theorem values_set_of_none (h : m.get k = none) :
    (m.set k v).values = m.values ++ [v] := values_put_of_none h

theorem map_values_put {α : Type} {f : ν → α} {k : κ} {v w : ν} (hf : f v = f w) :
    ∀ {es : List (κ × ν)}, es.lookup k = some w →
      ((put k v es).map Prod.snd).map f = (es.map Prod.snd).map f
  | [], h => by cases h
  | (l, u) :: es, h => by
      rw [lookup_entry] at h
      split at h
      · rename_i heq
        rw [put, if_pos heq.symm]
        simp [Option.some.inj h, hf]
      · rename_i hne
        rw [put, if_neg (Ne.symm hne)]
        simp only [map_cons]
        rw [map_values_put hf h]

/-- A value that is replaced by one like it. -/
theorem map_values_set {α : Type} {f : ν → α} {w : ν}
    (h : m.get k = some w) (hf : f v = f w) : (m.set k v).values.map f = m.values.map f :=
  map_values_put hf h

omit [DecidableEq κ] in
theorem values_keep_sublist (m : KeyedMap κ ν) (p : κ → ν → Bool) :
    (m.keep p).values.Sublist m.values := filter_sublist.map Prod.snd

theorem countP_put_le {k : κ} {v : ν} (p : ν → Bool) : ∀ es : List (κ × ν),
    ((put k v es).map Prod.snd).countP p ≤ (es.map Prod.snd).countP p + if p v = true then 1 else 0
  | [] => by simp [put, countP_singleton]
  | (l, w) :: es => by
      rw [put]
      split
      · simp only [map_cons, countP_cons]
        omega
      · have ih := countP_put_le (k := k) (v := v) p es
        simp only [map_cons, countP_cons]
        omega

/-- Storing a value counts at most that value more. -/
theorem countP_values_set_le (m : KeyedMap κ ν) (k : κ) (v : ν) (p : ν → Bool) :
    (m.set k v).values.countP p ≤ m.values.countP p + if p v = true then 1 else 0 :=
  countP_put_le p m.entries

theorem perm_filter_ne {k : κ} {v : ν} : ∀ {es : List (κ × ν)}, (es.map Prod.fst).Nodup →
    (k, v) ∈ es → es.Perm ((k, v) :: es.filter fun e => decide (e.1 ≠ k))
  | [], _, h => absurd h not_mem_nil
  | e :: es, hnodup, h => by
      rw [map_cons, nodup_cons] at hnodup
      rcases mem_cons.mp h with rfl | hmem
      · have hrest : es.filter (fun e => decide (e.1 ≠ k)) = es :=
          filter_eq_self.mpr fun e he => decide_eq_true fun heq =>
            hnodup.1 (mem_map.mpr ⟨e, he, heq⟩)
        rw [filter_cons_of_neg (by simp), hrest]
      · have hne : e.1 ≠ k := fun heq => hnodup.1 (mem_map.mpr ⟨(k, v), hmem, heq.symm⟩)
        rw [filter_cons_of_pos (by simpa using hne)]
        exact ((perm_filter_ne hnodup.2 hmem).cons e).trans (List.Perm.swap _ _ _)

/-- The values are those of the key and the rest. -/
theorem values_perm_erase (h : m.get k = some v) : m.values.Perm (v :: (m.erase k).values) :=
  (perm_filter_ne m.nodup (get_eq_some_iff.mp h)).map Prod.snd

/-! ## Size -/

def size (m : KeyedMap κ ν) : Nat := m.values.length

theorem size_set_of_none (h : m.get k = none) : (m.set k v).size = m.size + 1 := by
  rw [size, values_set_of_none h, length_append, length_singleton]
  rfl

theorem size_set_of_some {w : ν} (h : m.get k = some w) : (m.set k v).size = m.size := by
  have hmap := congrArg length (map_values_set (f := fun _ => ()) (v := v) h rfl)
  rwa [length_map, length_map] at hmap

omit [DecidableEq κ] in
theorem size_keep_le (m : KeyedMap κ ν) (p : κ → ν → Bool) : (m.keep p).size ≤ m.size :=
  (values_keep_sublist m p).length_le

omit [DecidableEq κ] in
theorem size_eq_length_keys (m : KeyedMap κ ν) : m.size = m.keys.length := by
  rw [size, values, keys, length_map, length_map]

/-- Where a value is made from its key, the values are those of the keys. -/
theorem values_eq_map_keys {f : κ → ν}
    (h : ∀ k v, m.get k = some v → v = f k) : m.values = m.keys.map f := by
  rw [values, keys, map_map]
  exact map_congr_left fun e he => h e.1 e.2 (get_eq_some_iff.mpr he)

/-- A map with all its keys in a list is as large as the list where each of
them is there once. -/
theorem size_eq_length_iff {ks : List κ} (hsub : ∀ k v, m.get k = some v → k ∈ ks) :
    m.size = ks.length ↔ m.keys.Perm ks := by
  rw [size_eq_length_keys]
  have hsubset : m.keys ⊆ ks := by
    intro k hk
    obtain ⟨v, hv⟩ := mem_keys_iff.mp hk
    exact hsub k v hv
  constructor
  · intro hsize
    exact (m.nodup.subperm hsubset).perm_of_length_le (Nat.le_of_eq hsize.symm)
  · exact List.Perm.length_eq

/-! ## Collecting -/

/-- Store each value under the key made of it. -/
def collect (key : ν → κ) (vs : List ν) : KeyedMap κ ν :=
  vs.foldl (fun m v => m.set (key v) v) empty

theorem get_foldl_set {key : ν → κ} {k : κ} {v : ν} : ∀ {vs : List ν} {m : KeyedMap κ ν},
    (vs.foldl (fun m v => m.set (key v) v) m).get k = some v → v ∈ vs ∧ k = key v ∨ m.get k = some v
  | [], _, h => .inr h
  | w :: vs, m, h => by
      have hrest : (vs.foldl (fun m v => m.set (key v) v) (m.set (key w) w)).get k = some v := h
      rcases get_foldl_set hrest with ⟨hv, hk⟩ | hm
      · exact .inl ⟨mem_cons_of_mem w hv, hk⟩
      · rw [get_set] at hm
        split at hm
        · rename_i hk
          cases hm
          exact .inl ⟨mem_cons_self, hk⟩
        · exact .inr hm

theorem get_foldl_set_of_not_mem {key : ν → κ} {k : κ} : ∀ {vs : List ν} {m : KeyedMap κ ν},
    (∀ v ∈ vs, key v ≠ k) → (vs.foldl (fun m v => m.set (key v) v) m).get k = m.get k
  | [], _, _ => rfl
  | w :: vs, m, h => by
      rw [foldl_cons, get_foldl_set_of_not_mem (fun v hv => h v (mem_cons_of_mem w hv)),
        get_set_of_ne m w (Ne.symm (h w mem_cons_self))]

variable {key : ν → κ} {vs : List ν}

theorem get_collect (h : (collect key vs).get k = some v) : v ∈ vs ∧ k = key v := by
  rcases get_foldl_set h with hv | hnone
  · exact hv
  · cases hnone

/-- Where no two of the values make the same key, none of them is lost. -/
theorem get_collect_key (hinj : ∀ a ∈ vs, ∀ b ∈ vs, key a = key b → a = b) (hv : v ∈ vs) :
    (collect key vs).get (key v) = some v := by
  have hgo : ∀ {vs : List ν} {m : KeyedMap κ ν}, (∀ a ∈ vs, ∀ b ∈ vs, key a = key b → a = b) →
      v ∈ vs → (vs.foldl (fun m v => m.set (key v) v) m).get (key v) = some v := by
    intro vs
    induction vs with
    | nil => exact fun _ hv => absurd hv not_mem_nil
    | cons w vs ih =>
        intro m hinj hv
        by_cases hmem : v ∈ vs
        · exact ih (fun a ha b hb =>
            hinj a (mem_cons_of_mem w ha) b (mem_cons_of_mem w hb)) hmem
        · obtain rfl : v = w := (mem_cons.mp hv).resolve_right hmem
          have hother : ∀ u ∈ vs, key u ≠ key v := fun u hu heq =>
            hmem (hinj u (mem_cons_of_mem v hu) v hv heq ▸ hu)
          rw [foldl_cons, get_foldl_set_of_not_mem hother, get_set_self]
  exact hgo hinj hv

theorem mem_values_collect (hinj : ∀ a ∈ vs, ∀ b ∈ vs, key a = key b → a = b) :
    v ∈ (collect key vs).values ↔ v ∈ vs := by
  rw [mem_values_iff]
  exact ⟨fun ⟨k, hk⟩ => (get_collect hk).1, fun hv => ⟨key v, get_collect_key hinj hv⟩⟩

theorem nodup_values_collect : (collect key vs).values.Nodup := by
  have hkeys : (collect key vs).values.map key = (collect key vs).entries.map Prod.fst := by
    rw [values, map_map]
    refine map_congr_left fun e he => ?_
    exact (get_collect (get_eq_some_iff.mpr he)).2.symm
  exact List.Nodup.of_map key (hkeys ▸ (collect key vs).nodup)

end KeyedMap

/-! ## Composite keys -/

namespace Keys

open List

theorem append_separator_inj {α : Type} {c : α} : ∀ {x y z w : List α}, c ∉ x → c ∉ y →
    x ++ c :: z = y ++ c :: w → x = y ∧ z = w
  | [], [], _, _, _, _, h => ⟨rfl, (cons.inj h).2⟩
  | [], b :: y, _, _, _, hy, h => absurd ((cons.inj h).1 ▸ mem_cons_self) hy
  | a :: x, [], _, _, hx, _, h => absurd ((cons.inj h).1 ▸ mem_cons_self) hx
  | a :: x, b :: y, _, _, hx, hy, h => by
      obtain ⟨rfl, htail⟩ := cons.inj h
      obtain ⟨rfl, hrest⟩ := append_separator_inj (fun hc => hx (mem_cons_of_mem a hc))
        (fun hc => hy (mem_cons_of_mem a hc)) htail
      exact ⟨rfl, hrest⟩

/-- Joining with a separator that no part contains loses nothing. -/
theorem intercalate_injective {α : Type} {c : α} : ∀ {xs ys : List (List α)},
    (∀ x ∈ xs, c ∉ x) → (∀ y ∈ ys, c ∉ y) → xs ≠ [] → ys ≠ [] →
      [c].intercalate xs = [c].intercalate ys → xs = ys
  | [], _, _, _, hx, _, _ => absurd rfl hx
  | _, [], _, _, _, hy, _ => absurd rfl hy
  | [x], [y], _, _, _, _, h => by
      rwa [intercalate_singleton, intercalate_singleton, ← singleton_inj] at h
  | [x], y :: y' :: ys, hx, _, _, _, h => by
      rw [intercalate_singleton, intercalate_cons_cons] at h
      exact absurd (h ▸ by simp) (hx x mem_cons_self)
  | x :: x' :: xs, [y], _, hy, _, _, h => by
      rw [intercalate_singleton, intercalate_cons_cons] at h
      exact absurd (h ▸ by simp) (hy y mem_cons_self)
  | x :: x' :: xs, y :: y' :: ys, hx, hy, _, _, h => by
      obtain ⟨hhead, hrest⟩ :=
        append_separator_inj (hx x mem_cons_self) (hy y mem_cons_self) h
      have htail := intercalate_injective (fun z hz => hx z (mem_cons_of_mem x hz))
        (fun z hz => hy z (mem_cons_of_mem y hz)) (by simp) (by simp) hrest
      rw [hhead, htail]

/-- Texts joined by NUL, the way a store makes one key of several parts. -/
def joined (parts : List String) : String := "\x00".intercalate parts

def NulFree (s : String) : Prop := '\x00' ∉ s.toList

instance (s : String) : Decidable (NulFree s) := inferInstanceAs (Decidable (_ ∉ _))

variable {xs : List String}

theorem joined_injective {ys : List String} (hx : ∀ x ∈ xs, NulFree x)
    (hy : ∀ y ∈ ys, NulFree y) (hxs : xs ≠ []) (hys : ys ≠ []) (h : joined xs = joined ys) :
    xs = ys := by
  have hlists : ['\x00'].intercalate (xs.map String.toList)
      = ['\x00'].intercalate (ys.map String.toList) := by
    have hchars := congrArg String.toList h
    rwa [joined, joined, String.toList_intercalate, String.toList_intercalate] at hchars
  have hmap := intercalate_injective (by simpa [NulFree] using hx) (by simpa [NulFree] using hy)
    (by simpa using hxs) (by simpa using hys) hlists
  exact (map_inj_right fun _ _ => String.toList_inj.mp).mp hmap

theorem joined_ne_empty (hxs : xs ≠ []) (hx : "" ∉ xs) : joined xs ≠ "" := by
  intro h
  have hchars := congrArg String.toList h
  rw [joined, String.toList_intercalate] at hchars
  cases xs with
  | nil => exact hxs rfl
  | cons y ys =>
      cases ys with
      | nil =>
          rw [map_singleton, intercalate_singleton] at hchars
          exact hx (String.toList_inj.mp hchars ▸ mem_cons_self)
      | cons z zs =>
          simp at hchars

/-- Lists of texts that are neither empty nor contain the separator are
told apart by their joined texts. -/
theorem joined_inj {ys : List String} (hx : ∀ x ∈ xs, x ≠ "" ∧ NulFree x)
    (hy : ∀ y ∈ ys, y ≠ "" ∧ NulFree y) (h : joined xs = joined ys) : xs = ys := by
  have hxs : "" ∉ xs := fun hmem => (hx "" hmem).1 rfl
  have hys : "" ∉ ys := fun hmem => (hy "" hmem).1 rfl
  by_cases hnil : xs = []
  · subst hnil
    by_contra hne
    exact joined_ne_empty (Ne.symm hne) hys h.symm
  · by_cases hnil' : ys = []
    · subst hnil'
      exact absurd h (joined_ne_empty hnil hxs)
    · exact joined_injective (fun x hmem => (hx x hmem).2) (fun y hmem => (hy y hmem).2) hnil hnil' h

end Keys
