import Mathlib.Data.List.Sort
import Mathlib.Data.String.Basic
import Sdp.Log.Entry
import Sdp.Proofs.Data.Fields

/-!
# Fields in order

Main statements: `perm_arrange` and `inOrder_arrange`, fields with distinct names are only moved, the leading
ones to the front and all others behind them by name, and `arrange_canonical`, that is their one order.
-/

namespace Sdp.Log

variable {fields : Fields} {name : String} {v : Value}

/-! ## The front -/

theorem nodup_leadingNames : leadingNames.Nodup := by
  decide

theorem mem_leading_iff : (name, v) ∈ leading fields ↔ name ∈ leadingNames ∧ fields.get? name = some v := by
  simp [leading, List.mem_filterMap]

/-- The names at the front are those leading names that are there. -/
theorem names_leading (fields : Fields) :
    (leading fields).names = leadingNames.filter fun name => (fields.get? name).isSome := by
  rw [Named.names, leading, List.map_filterMap, ← List.filterMap_eq_filter]
  refine List.filterMap_congr fun name _ => ?_
  cases h : fields.get? name <;> simp [Option.guard, h]

theorem sublist_leadingNames (fields : Fields) : (leading fields).names.Sublist leadingNames := by
  rw [names_leading]
  exact List.filter_sublist

/-! ## All others -/

theorem perm_trailing (fields : Fields) :
    (trailing fields).Perm (fields.filter fun field => field.1 ∉ leadingNames) :=
  List.mergeSort_perm _ _

theorem distinct_trailing (h : fields.Distinct) : (trailing fields).Distinct :=
  ((perm_trailing fields).map Prod.fst).nodup_iff.mpr (h.sublist (List.filter_sublist.map Prod.fst))

theorem pairwise_trailing (h : fields.Distinct) : (trailing fields).names.Pairwise (· < ·) := by
  have hsorted : (trailing fields).Pairwise fun a b => a.1 ≤ b.1 := by
    refine (List.pairwise_mergeSort ?_ ?_ _).imp of_decide_eq_true
    · intro a b c hab hbc
      exact decide_eq_true ((of_decide_eq_true hab).trans (of_decide_eq_true hbc))
    · intro a b
      simpa using le_total a.1 b.1
  have hnames : (trailing fields).names.Pairwise (· ≤ ·) := List.pairwise_map.mpr hsorted
  exact (hnames.and (distinct_trailing h)).imp fun hlt => lt_of_le_of_ne hlt.1 hlt.2

/-! ## Both -/

theorem perm_arrange (h : fields.Distinct) : (arrange fields).Perm fields := by
  have hfront : (leading fields).Perm (fields.filter fun field => field.1 ∈ leadingNames) := by
    refine (List.perm_ext_iff_of_nodup ?_ ?_).mpr ?_
    · exact .of_map Prod.fst (nodup_leadingNames.sublist (sublist_leadingNames fields))
    · exact (List.Nodup.of_map Prod.fst h).filter _
    · rintro ⟨name, v⟩
      rw [mem_leading_iff, h.get?_eq_some_iff, List.mem_filter, decide_eq_true_iff, and_comm]
  refine (hfront.append (perm_trailing fields)).trans ?_
  simpa using List.filter_append_perm (fun field : String × Value => decide (field.1 ∈ leadingNames)) fields

theorem inOrder_arrange (h : fields.Distinct) : InOrder (arrange fields).names := by
  refine ⟨_, _, List.map_append, sublist_leadingNames fields, pairwise_trailing h, fun name hname => ?_⟩
  obtain ⟨field, hfield, rfl⟩ := List.mem_map.mp hname
  have hmem := (perm_trailing fields).mem_iff.mp hfield
  exact of_decide_eq_true (List.mem_filter.mp hmem).2

/-! ## One order -/

/-- Which of two names goes first. -/
def Precedes (a b : String) : Prop :=
  if a ∈ leadingNames then b ∈ leadingNames → leadingNames.idxOf a < leadingNames.idxOf b
  else b ∉ leadingNames ∧ a < b

theorem Precedes.asymm {a b : String} (hab : Precedes a b) : ¬ Precedes b a := by
  intro hba
  unfold Precedes at hab hba
  by_cases ha : a ∈ leadingNames
  · rw [if_pos ha] at hab
    split at hba
    · next hb => exact Nat.lt_asymm (hab hb) (hba ha)
    · exact hba.1 ha
  · rw [if_neg ha] at hab
    rw [if_neg hab.1] at hba
    exact lt_asymm hab.2 hba.2

theorem InOrder.pairwise {names : List String} (h : InOrder names) : names.Pairwise Precedes := by
  obtain ⟨front, back, rfl, hfront, hback, hother⟩ := h
  have hleading : ∀ name ∈ front, name ∈ leadingNames := fun _ hname => hfront.subset hname
  have hindex : leadingNames.Pairwise fun a b => leadingNames.idxOf a < leadingNames.idxOf b := by
    decide
  refine List.pairwise_append.mpr ⟨?_, ?_, fun a ha b hb => ?_⟩
  · refine (hindex.sublist hfront).imp_of_mem fun ha _ hlt => ?_
    rw [Precedes, if_pos (hleading _ ha)]
    exact fun _ => hlt
  · refine hback.imp_of_mem fun ha hb hlt => ?_
    rw [Precedes, if_neg (hother _ ha)]
    exact ⟨hother _ hb, hlt⟩
  · rw [Precedes, if_pos (hleading a ha)]
    exact fun hmem => absurd hmem (hother b hb)

/-- Of all lists of the same fields one is in order. -/
theorem InOrder.eq_of_perm {others : Fields} (h : InOrder fields.names) (hothers : InOrder others.names)
    (hperm : fields.Perm others) : fields = others := by
  have hpairwise : fields.Pairwise fun a b => Precedes a.1 b.1 := List.pairwise_map.mp h.pairwise
  have hpairwise' : others.Pairwise fun a b => Precedes a.1 b.1 := List.pairwise_map.mp hothers.pairwise
  exact hperm.eq_of_pairwise (fun _ _ _ _ hab hba => absurd hba hab.asymm) hpairwise hpairwise'

theorem eq_arrange_of_perm {others : Fields} (h : fields.Distinct) (hperm : others.Perm fields)
    (hothers : InOrder others.names) : others = arrange fields :=
  hothers.eq_of_perm (inOrder_arrange h) (hperm.trans (perm_arrange h).symm)

theorem arrange_eq_of_perm {others : Fields} (h : fields.Distinct) (hperm : others.Perm fields) :
    arrange others = arrange fields := by
  have hothers : others.Distinct := (hperm.map Prod.fst).nodup_iff.mpr h
  exact eq_arrange_of_perm h ((perm_arrange hothers).trans hperm) (inOrder_arrange hothers)

/-- Fields are laid out in the one order that they have: all of them as they are, the leading names that are
there first and in their order, and every other name behind them by code points. What order they came in
makes no difference, and laying them out again changes nothing. -/
theorem arrange_canonical (h : fields.Distinct) :
    (arrange fields).Perm fields ∧ InOrder (arrange fields).names ∧
    (∀ others : Fields, others.Perm fields → InOrder others.names → others = arrange fields) ∧
    (∀ others : Fields, others.Distinct → (∀ field, field ∈ others ↔ field ∈ fields) →
      arrange others = arrange fields) ∧
    arrange (arrange fields) = arrange fields := by
  refine ⟨perm_arrange h, inOrder_arrange h, fun _ => eq_arrange_of_perm h, fun others hothers hmem => ?_,
    arrange_eq_of_perm h (perm_arrange h)⟩
  have hperm : others.Perm fields :=
    (List.perm_ext_iff_of_nodup (.of_map Prod.fst hothers) (.of_map Prod.fst h)).mpr hmem
  exact arrange_eq_of_perm h hperm

/-- Capitals go before small letters, and a leading name before both. -/
theorem arrange_canonical_of_capital :
    let fields : Fields := [("port", .int 9), ("Zone", .null), ("kind", .text "rtcp"), ("level", .text "info")]
    let laidOut : Fields := [("level", .text "info"), ("kind", .text "rtcp"), ("Zone", .null), ("port", .int 9)]
    fields.Distinct ∧ laidOut.Perm fields ∧ InOrder laidOut.names ∧ laidOut = arrange fields ∧
      laidOut.Distinct ∧ (∀ field, field ∈ laidOut ↔ field ∈ fields) ∧ arrange laidOut = arrange fields := by
  intro fields laidOut
  have hdistinct : fields.Distinct := by decide
  have hdistinct' : laidOut.Distinct := by decide
  have hperm : laidOut.Perm fields := fields.reverse_perm
  have horder : InOrder laidOut.names :=
    ⟨["level", "kind"], ["Zone", "port"], rfl, by decide, by decide, by decide⟩
  obtain ⟨-, -, hunique, hsame, -⟩ := arrange_canonical hdistinct
  exact ⟨hdistinct, hperm, horder, hunique _ hperm horder, hdistinct', fun _ => hperm.mem_iff,
    hsame _ hdistinct' fun _ => hperm.mem_iff⟩

end Sdp.Log
