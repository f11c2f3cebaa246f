import Sdp.Data.Value

/-!
# Fields by name

Main statement: `get?_merge`, of fields that are overwritten by others the others count.
-/

namespace Sdp

namespace Named

variable {α : Type}

theorem get?_cons (name n : String) (v : α) (fields : Named α) :
    get? ((n, v) :: fields) name = if name = n then some v else get? fields name := by
  rw [get?, List.lookup_cons]
  by_cases h : name = n
  · simp [h]
  · simp [h, beq_eq_false_iff_ne.mpr h, get?]

theorem get?_put_self (fields : Named α) (name : String) (v : α) :
    (fields.put name v).get? name = some v := by
  induction fields with
  | nil => simp [put, get?_cons]
  | cons field rest ih =>
      obtain ⟨n, w⟩ := field
      by_cases hn : n = name
      · simp [put, hn, get?_cons]
      · simp [put, hn, get?_cons, Ne.symm hn, ih]

theorem get?_put_of_ne {name other : String} (h : other ≠ name) (fields : Named α) (v : α) :
    (fields.put name v).get? other = fields.get? other := by
  induction fields with
  | nil => simp [put, get?_cons, h]
  | cons field rest ih =>
      obtain ⟨n, w⟩ := field
      by_cases hn : n = name
      · simp [put, hn, get?_cons, h]
      · simp [put, hn, get?_cons, ih]

theorem get?_put (fields : Named α) (name other : String) (v : α) :
    (fields.put name v).get? other = if other = name then some v else fields.get? other := by
  split
  · next h => rw [h, get?_put_self]
  · next h => exact get?_put_of_ne h fields v

theorem get?_map {β : Type} (f : α → β) (things : Named α) (name : String) :
    get? (things.map fun (n, a) => (n, f a)) name = (things.get? name).map f := by
  induction things with
  | nil => rfl
  | cons thing rest ih =>
      obtain ⟨n, a⟩ := thing
      rw [List.map_cons, get?_cons, get?_cons, ih]
      split <;> rfl

variable {fields others : Named α} {name : String} {v : α}

theorem mem_of_get? (h : fields.get? name = some v) : (name, v) ∈ fields := by
  obtain ⟨front, back, rfl, -⟩ := List.lookup_eq_some_iff.mp h
  exact List.mem_append_right _ List.mem_cons_self

theorem get?_eq_none (h : name ∉ fields.names) : fields.get? name = none := by
  cases hv : fields.get? name with
  | none => rfl
  | some v => exact absurd (List.mem_map.mpr ⟨_, mem_of_get? hv, rfl⟩) h

theorem Distinct.get?_eq_some_iff (h : fields.Distinct) : fields.get? name = some v ↔ (name, v) ∈ fields := by
  refine ⟨mem_of_get?, fun hmem => ?_⟩
  induction fields with
  | nil => cases hmem
  | cons field rest ih =>
      obtain ⟨n, w⟩ := field
      obtain ⟨hn, hrest⟩ := List.nodup_cons.mp h
      rw [get?_cons]
      rcases List.mem_cons.mp hmem with heq | hmem
      · cases heq
        exact if_pos rfl
      · have hne : name ≠ n := fun heq => hn (heq ▸ List.mem_map.mpr ⟨_, hmem, rfl⟩)
        rw [if_neg hne, ih hrest hmem]

theorem get?_eq_of_perm (hperm : fields.Perm others) (h : others.Distinct) (name : String) :
    fields.get? name = others.get? name := by
  have hfields : fields.Distinct := (hperm.map Prod.fst).nodup_iff.mpr h
  ext v
  rw [hfields.get?_eq_some_iff, h.get?_eq_some_iff, hperm.mem_iff]

theorem mem_names_put {other : String} (h : other ∈ (fields.put name v).names) :
    other = name ∨ other ∈ fields.names := by
  induction fields with
  | nil => exact Or.inl (List.mem_singleton.mp h)
  | cons field rest ih =>
      obtain ⟨n, w⟩ := field
      rw [put] at h
      split at h
      · exact (List.mem_cons.mp h).imp_right (List.mem_cons_of_mem _)
      · rcases List.mem_cons.mp h with rfl | h
        · exact Or.inr List.mem_cons_self
        · exact (ih h).imp_right (List.mem_cons_of_mem _)

theorem Distinct.put (h : fields.Distinct) (name : String) (v : α) : (fields.put name v).Distinct := by
  induction fields with
  | nil => exact List.pairwise_singleton _ _
  | cons field rest ih =>
      obtain ⟨n, w⟩ := field
      obtain ⟨hn, hrest⟩ := List.nodup_cons.mp h
      rw [Named.put]
      split
      · next heq => exact List.nodup_cons.mpr ⟨heq ▸ hn, hrest⟩
      · next hne =>
          refine List.nodup_cons.mpr ⟨fun hmem => ?_, ih hrest⟩
          exact (mem_names_put hmem).elim hne hn

theorem Distinct.merge (h : fields.Distinct) (others : Named α) : (fields.merge others).Distinct := by
  induction others generalizing fields with
  | nil => exact h
  | cons other rest ih => exact ih (h.put other.1 other.2)

/-- Of fields that are overwritten by others the others count. -/
theorem get?_merge (fields : Named α) (h : others.Distinct) (name : String) :
    (fields.merge others).get? name = (others.get? name).or (fields.get? name) := by
  induction others generalizing fields with
  | nil => rfl
  | cons other rest ih =>
      obtain ⟨n, w⟩ := other
      obtain ⟨hn, hrest⟩ := List.nodup_cons.mp h
      have hmerge : fields.merge ((n, w) :: rest) = (fields.put n w).merge rest := rfl
      rw [hmerge, ih _ hrest, get?_put, get?_cons]
      split
      · next heq => rw [heq, get?_eq_none hn, Option.none_or, Option.some_or]
      · rfl

end Named

end Sdp
