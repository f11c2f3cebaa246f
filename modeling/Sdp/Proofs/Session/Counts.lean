import Sdp.Proofs.Session.Diagnostics
import Sdp.Proofs.Session.Routing

/-!
# Numbers in events

What a reader counts is bounded by the text that it reads. Main statement: `Session.short_of_mem_read`, the
events of a reading hold no long integers, unless the text is that long.
-/

namespace Sdp

theorem Value.short_natCast {n k : Nat} (hn : n ≤ k) (hk : k < Nat.pow 10 4300) : (Value.int n).Short := by
  refine .int ?_
  rw [Int.natAbs_natCast]
  exact Nat.lt_of_le_of_lt hn hk

namespace Session

variable {policy : Policy} {s s' : Session} {n k : Nat} {ls : List (List Char)} {events : List Event}
  {text : List Char} {e : Event}

theorem length_updateLast (f : Media → Media) (ms : List Media) : (updateLast f ms).length = ms.length := by
  rcases updateLast_cases ms with rfl | ⟨before, m, rfl, hlast⟩
  · rfl
  · rw [hlast, List.length_append, List.length_append]
    rfl

/-- A line opens one media description or says one attribute at the most. -/
theorem length_add (s : Session) (item : Item) :
    (s.add item).media.length + (s.add item).attributes.length ≤ s.media.length + s.attributes.length + 1 := by
  cases item with
  | attr a => cases hm : s.media.isEmpty <;> simp [add, hm, length_updateLast, Nat.add_assoc]
  | connection address => cases hm : s.media.isEmpty <;> simp [add, hm, length_updateLast]
  | media m =>
      simp only [add, List.length_append, List.length_singleton]
      omega
  | _ => exact Nat.le_succ _

theorem length_readLines (h : readLines policy s n ls = (events, .ok s')) :
    s'.media.length + s'.attributes.length ≤ s.media.length + s.attributes.length + ls.length := by
  induction ls generalizing s n events with
  | nil =>
      obtain rfl : s = s' := Except.ok.inj (Prod.mk.inj h).2
      exact Nat.le_refl _
  | cons line rest ih =>
      rcases readLines_cons_cases policy s n line rest with ⟨e, -, hline⟩ | ⟨item, tail, result, -, hrest, hline⟩
      · cases (Prod.mk.inj (hline.symm.trans h)).2
      · obtain ⟨-, rfl⟩ := Prod.mk.inj (hline.symm.trans h)
        have hadd := length_add (s.warn policy.maxWarnings n (LineReading.ofLine policy.mode line).skipped) item
        have hrun := ih hrest
        rw [List.length_cons]
        simp only [warn] at hadd hrun
        omega

/-- No number in the event is above `k`. -/
def Event.AtMost (k : Nat) : Event → Prop
  | .skipped line _ | .rejected line _ => line ≤ k
  | .parsed media attributes warnings => media ≤ k ∧ attributes ≤ k ∧ warnings ≤ k

theorem StandsOn.le {piece : String} (h : StandsOn piece text n) : n ≤ (Text.lines text).length := by
  obtain ⟨before, line, after, hlines, rfl, -⟩ := h
  rw [hlines, List.length_append, List.length_cons]
  omega

theorem parsed_not_mem_of_error {f : Failure} (h : readLines policy s n ls = (events, .error f))
    (media attributes warnings : Nat) : Event.parsed media attributes warnings ∉ events := by
  obtain ⟨before, line, after, e, -, -, -, -, rfl⟩ := readLines_error h
  intro hmem
  rcases List.mem_append.mp hmem with hskipped | hrejected
  · obtain ⟨w, -, hevent⟩ := List.mem_map.mp hskipped
    cases hevent
  · unfold rejection at hrejected
    split at hrejected
    · cases List.mem_singleton.mp hrejected
    · cases hrejected

theorem atMost_of_mem_read (he : e ∈ (read policy text).1) (htext : text.length ≤ k)
    (hlimit : policy.maxWarnings ≤ k) : e.AtMost k := by
  have hlines := Nat.le_trans (Text.length_lines_le text) htext
  by_cases hblank : ∀ c ∈ text, Text.isBlank c
  · rw [read_of_isBlank hblank] at he
    cases he
  rw [read_of_not_isBlank hblank] at he
  cases e with
  | skipped line d => exact Nat.le_trans (StandsOn.le (standsOn_event rfl (Or.inl he))) hlines
  | rejected line d => exact Nat.le_trans (StandsOn.le (standsOn_event rfl (Or.inr he))) hlines
  | parsed media attributes warnings =>
      cases hread : readLines policy {} 1 (Text.lines text) with
      | mk events result =>
          rw [hread] at he
          cases result with
          | error f => exact absurd he (parsed_not_mem_of_error hread _ _ _)
          | ok s =>
              obtain ⟨-, rfl, hwarnings⟩ := readLines_ok hread
              rcases List.mem_append.mp he with hskipped | hsummary
              · obtain ⟨w, -, hevent⟩ := List.mem_map.mp hskipped
                cases hevent
              cases List.mem_singleton.mp hsummary
              have hcounts := length_readLines hread
              have hroom : s.warnings.length ≤ policy.maxWarnings := by
                rw [hwarnings]
                exact List.length_take_le _ _
              refine ⟨?_, ?_, Nat.le_trans hroom hlimit⟩
              · simp only [List.length_nil] at hcounts
                omega
              · simp only [List.length_nil] at hcounts
                omega

theorem short_of_atMost (h : e.AtMost k) (hk : k < Nat.pow 10 4300) : ∀ field ∈ e.entry.fields, field.2.Short := by
  cases e with
  | skipped line d =>
      simp only [Event.entry, faultFields, List.forall_mem_cons]
      exact ⟨Value.short_natCast h hk, .text _, .text _, List.forall_mem_nil _⟩
  | rejected line d =>
      simp only [Event.entry, faultFields, List.forall_mem_cons]
      exact ⟨Value.short_natCast h hk, .text _, .text _, List.forall_mem_nil _⟩
  | parsed media attributes warnings =>
      obtain ⟨hmedia, hattributes, hwarnings⟩ := h
      simp only [Event.entry, List.forall_mem_cons]
      exact ⟨Value.short_natCast hmedia hk, Value.short_natCast hattributes hk, Value.short_natCast hwarnings hk,
        List.forall_mem_nil _⟩

/-- The events of a reading hold no long integers. -/
theorem short_of_mem_read (htext : text.length < Nat.pow 10 4300) (hlimit : policy.maxWarnings < Nat.pow 10 4300) :
    ∀ e ∈ (read policy text).1, ∀ field ∈ e.entry.fields, field.2.Short := fun _ he =>
  short_of_atMost (atMost_of_mem_read he (Nat.le_max_left _ _) (Nat.le_max_right _ _)) (Nat.max_lt.mpr ⟨htext, hlimit⟩)

theorem line_le_of_refused {f : Failure} (h : (read policy text).2 = .error f) (hn : f.line = some n) :
    n ≤ text.length := by
  by_cases hblank : ∀ c ∈ text, Text.isBlank c
  · rw [read_of_isBlank hblank] at h
    cases h
    cases hn
  · rw [read_of_not_isBlank hblank] at h
    obtain ⟨before, line, after, e, hlines, -, -, rfl, -⟩ := readLines_error (Prod.ext rfl h)
    cases hn
    have hlength := Text.length_lines_le text
    rw [hlines, List.length_append, List.length_cons] at hlength
    omega

end Session

end Sdp
