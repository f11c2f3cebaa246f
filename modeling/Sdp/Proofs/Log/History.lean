import Mathlib.Data.List.Induction
import Sdp.Log.History
import Sdp.Proofs.Data.Printer

/-!
# Histories, step by step

What one more request adds to a history: to the setup in force, to the loggers that have been bound, and to the
lines of a file.
-/

namespace Sdp.Log

/-! ## Lines -/

section Lines

variable {layout : Layout} {context : Fields} {e : Event}

/-- A line that can be written is the line of the event, in either format. -/
theorem line?_of_short (h : (Value.record (record layout.stamp context e)).Short) (format : Format) :
    line? layout format context e = some (line layout format context e) := by
  have hfits := (Json.fits_iff _).mpr h
  cases format with
  | json =>
      rw [line?, Json.print, if_pos hfits]
      rfl
  | text => exact if_pos hfits

theorem line?_eq_none (h : ¬ (Value.record (record layout.stamp context e)).Short) (format : Format) :
    line? layout format context e = none := by
  have hfits := mt (Json.fits_iff _).mp h
  cases format with
  | json =>
      rw [line?, Json.print, if_neg hfits]
      rfl
  | text => exact if_neg hfits

/-- JSON stands on one line, whatever is in it. -/
theorem not_mem_line (layout : Layout) (context : Fields) (e : Event) :
    '\n' ∉ (line layout .json context e).toList := by
  rw [line, String.toList_ofList]
  exact (Json.visible_layOut _).not_mem_newline

end Lines

/-! ## Histories -/

namespace History

variable {h : History} {now : Moment} {q : Request} {s : Setup} {p : Path} {logger : Logger} {e : Event}

theorem inForce_concat (h : History) (now : Moment) (q : Request) :
    inForce (h ++ [(now, q)]) = q.setup?.or (inForce h) := by
  rw [inForce, List.filterMap_append, List.getLast?_append]
  cases hq : q.setup? <;> simp [hq, inForce]

theorem exists_of_inForce (hs : inForce h = some s) : ∃ now q, (now, q) ∈ h ∧ q.setup? = some s := by
  obtain ⟨⟨now, q⟩, hmem, hq⟩ := List.mem_filterMap.mp (List.mem_of_getLast? hs)
  exact ⟨now, q, hmem, hq⟩

theorem Opened.mono {h' : History} (hp : Opened h p) (hsub : h ⊆ h') : Opened h' p := by
  obtain ⟨now, q, s, hmem, hs⟩ := hp
  exact ⟨now, q, s, hsub hmem, hs⟩

theorem opened_concat (h : History) (now : Moment) (q : Request) (p : Path) :
    Opened (h ++ [(now, q)]) p ↔ Opened h p ∨ ∃ s, q.setup? = some s ∧ s.file? = some p := by
  constructor
  · rintro ⟨now', q', s, hmem, hs⟩
    rcases List.mem_append.mp hmem with hmem | hmem
    · exact Or.inl ⟨now', q', s, hmem, hs⟩
    · cases List.mem_singleton.mp hmem
      exact Or.inr ⟨s, hs⟩
  · rintro (hp | ⟨s, hs⟩)
    · exact hp.mono (List.subset_append_left ..)
    · exact ⟨now, q, s, List.mem_append_right _ (List.mem_singleton.mpr rfl), hs⟩

/-- What requests gave does not change with later ones. -/
theorem collect_concat {α : Type} (h : History) (m : Moment × Request)
    (give : History → Moment × Request → Option α) :
    (h ++ [m]).collect give = h.collect give ++ (give h m).toList := by
  have hfront : ∀ n ∈ h.zipIdx, give ((h ++ [m]).take n.2) n.1 = give (h.take n.2) n.1 := by
    intro n hn
    rw [List.take_append_of_le_length (Nat.le_of_lt (List.snd_lt_of_mem_zipIdx hn))]
  have hlast : (h ++ [m]).take h.length = h := List.take_left
  rw [collect, List.zipIdx_append, List.filterMap_append, List.filterMap_congr hfront]
  simp only [List.zipIdx_cons, List.zipIdx_nil, List.filterMap_cons, List.filterMap_nil, Nat.zero_add, hlast]
  cases give h m <;> rfl

theorem exists_of_mem_collect {α : Type} {give : History → Moment × Request → Option α} {a : α}
    (ha : a ∈ h.collect give) : ∃ i m, give (h.take i) m = some a := by
  obtain ⟨⟨m, i⟩, -, hgive⟩ := List.mem_filterMap.mp ha
  exact ⟨i, m, hgive⟩

theorem loggers_concat (h : History) (now : Moment) (q : Request) :
    loggers (h ++ [(now, q)]) = loggers h ++ (bound? h q).toList :=
  collect_concat h (now, q) _

theorem lines_concat (h : History) (now : Moment) (q : Request) (p : Path) :
    lines (h ++ [(now, q)]) p = lines h p ++ (lineIn? h p now q).toList :=
  collect_concat h (now, q) _

/-- Whatever is written, it is by a setup that has been asked for. -/
theorem exists_of_call? (hc : h.call? q = some (logger, e)) :
    ∃ now q', (now, q') ∈ h ∧ q'.setup? = some logger.setup := by
  cases q with
  | write context e' =>
      obtain ⟨s, hs, heq⟩ := Option.map_eq_some_iff.mp hc
      cases heq
      exact exists_of_inForce hs
  | writeBound i e' =>
      obtain ⟨b, hb, hsetup⟩ := Option.bind_eq_some_iff.mp hc
      obtain ⟨s, hs, heq⟩ := Option.map_eq_some_iff.mp hsetup
      cases heq
      obtain ⟨k, m, hbound⟩ := exists_of_mem_collect (List.mem_of_getElem? hb)
      cases hm : m.2 with
      | bind context =>
          rw [hm] at hbound
          obtain rfl := Option.some.inj hbound
          obtain ⟨now, q', hmem, hq'⟩ := exists_of_inForce hs
          exact ⟨now, q', List.mem_of_mem_take hmem, hq'⟩
      | _ =>
          rw [hm] at hbound
          cases hbound
  | _ => cases hc

theorem opened_of_call? (hc : h.call? q = some (logger, e)) (hp : logger.setup.file? = some p) : Opened h p := by
  obtain ⟨now, q', hmem, hq'⟩ := exists_of_call? hc
  exact ⟨now, q', _, hmem, hq', hp⟩

/-- Lines go to files that have been opened only. -/
theorem lines_eq_nil (hp : ¬ Opened h p) : lines h p = [] := by
  refine List.eq_nil_iff_forall_not_mem.mpr fun l hl => hp ?_
  obtain ⟨i, m, hline⟩ := exists_of_mem_collect hl
  obtain ⟨hfile, -⟩ := Option.ite_none_right_eq_some.mp hline
  obtain ⟨⟨logger, e⟩, hc, hp⟩ := Option.bind_eq_some_iff.mp hfile
  exact (opened_of_call? hc hp).mono (List.take_subset ..)

theorem lines_prefix (h h' : History) (p : Path) : lines h p <+: lines (h ++ h') p := by
  induction h' using List.reverseRecOn with
  | nil => exact (List.append_nil h).symm ▸ List.prefix_rfl
  | append_singleton h' m ih =>
      rw [← List.append_assoc, lines_concat]
      exact ih.trans (List.prefix_append ..)

theorem call?_of_setup (hq : q.setup? = some s) : h.call? q = none := by
  cases q with
  | write context e => cases hq
  | writeBound i e => cases hq
  | _ => rfl

theorem bound?_of_setup (hq : q.setup? = some s) : h.bound? q = none := by
  cases q with
  | bind context => cases hq
  | _ => rfl

theorem setup?_of_call? (hc : h.call? q = some (logger, e)) : q.setup? = none := by
  cases hq : q.setup? with
  | none => rfl
  | some s => cases (call?_of_setup hq).symm.trans hc

theorem bound?_of_call? (hc : h.call? q = some (logger, e)) : h.bound? q = none := by
  cases q with
  | bind context => cases hc
  | _ => rfl

theorem lineIn?_of_not_call? (hc : h.call? q = none) (p : Path) : lineIn? h p now q = none := by
  rw [lineIn?, hc]
  exact if_neg nofun

theorem line?_of_call? (hc : h.call? q = some (logger, e)) (now : Moment) :
    h.line? now q = if logger.setup.threshold.severity ≤ e.level.severity then
      Log.line? now.layout logger.setup.format logger.context e else none := by
  rw [line?, hc]
  rfl

theorem lineIn?_of_call? (hc : h.call? q = some (logger, e)) (p : Path) :
    h.lineIn? p now q = if logger.setup.file? = some p then h.line? now q else none := by
  rw [lineIn?, hc]
  rfl

theorem Admissible.of_append {h' : History} (hh : Admissible (h ++ h')) : Admissible h :=
  fun now q s hmem => hh now q s (List.mem_append_left _ hmem)

end History

end Sdp.Log
