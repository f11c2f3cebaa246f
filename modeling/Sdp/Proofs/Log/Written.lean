import Sdp.Log.Written

/-!
# Events become lines

Main statement: `Router.writeAll_of_configure`, each event that reaches the threshold becomes one line, in
order, in the place of the setup.
-/

namespace Sdp.Log

theorem Setup.lines_cons (s : Setup) (layout : Layout) (e : Event) (events : List Event) :
    s.lines layout (e :: events) =
      (if e.level.severity < s.threshold.severity then [] else [line layout s.format [] e]) ++
        s.lines layout events := by
  by_cases h : e.level.severity < s.threshold.severity
  · have hbelow : ¬ s.threshold.severity ≤ e.level.severity := Nat.not_le.mpr h
    simp [lines, written, h, hbelow]
  · have habove : s.threshold.severity ≤ e.level.severity := Nat.not_lt.mp h
    simp [lines, written, h, habove]

section Writable

variable {s : Setup} {look : Path → Entry} {path : String}

theorem Setup.writable_of_stdout (h : s.sink = .stdout) : s.Writable look :=
  fun _ hpath => nomatch h.symm.trans hpath

theorem Setup.writable_of_file (h : s.sink = .file path) (hrelative : path.toList.head? ≠ some '/')
    (hnul : '\x00' ∉ path.toList) (hadmits : Router.admits look (Router.target path) = .ok ()) :
    s.Writable look := by
  intro path' hpath
  cases h.symm.trans hpath
  exact ⟨hrelative, hnul, hadmits⟩

end Writable

namespace Router

variable {r : Router} {s : Setup} {path : String} {ls : List String}

theorem writeAll_of_stdout (h : r.setup.sink = .stdout) (layout : Layout) (events : List Event) :
    r.writeAll layout events = (r, r.setup.lines layout events) := by
  induction events with
  | nil => rfl
  | cons e events ih =>
      rw [Setup.lines_cons]
      by_cases he : e.level.severity < r.setup.threshold.severity
      · simp [writeAll, write, he, ih]
      · simp [writeAll, write, put, he, h, ih]

theorem writeAll_of_file (h : r.setup.sink = .file path) (hfiles : r.files = [(target path, ls)])
    (layout : Layout) (events : List Event) :
    r.writeAll layout events =
      ({ r with files := [(target path, ls ++ r.setup.lines layout events)] }, []) := by
  induction events generalizing r ls with
  | nil => simp [writeAll, Setup.lines, Setup.written, ← hfiles]
  | cons e events ih =>
      rw [Setup.lines_cons]
      by_cases he : e.level.severity < r.setup.threshold.severity
      · simp [writeAll, write, he, ih h hfiles]
      · have hwrite : r.write layout e =
            ({ r with files := [(target path, ls ++ [line layout r.setup.format [] e])] }, none) := by
          simp [write, put, he, h, hfiles, append]
        let next : Router := { r with files := [(target path, ls ++ [line layout r.setup.format [] e])] }
        have hnext : next.setup.sink = .file path := h
        rw [writeAll, hwrite]
        simp [ih hnext rfl, he, next]

theorem exists_configure {look : Path → Entry} (h : s.Writable look) :
    ∃ r, ({} : Router).configure look s = .ok r := by
  unfold configure
  cases hsink : s.sink with
  | stdout => exact ⟨_, rfl⟩
  | file path =>
      obtain ⟨-, -, hadmits⟩ := h path hsink
      simp only [hadmits]
      exact ⟨_, rfl⟩

/-- After a setup has been put in force, its lines are all that is written. -/
theorem writeAll_of_configure {look : Path → Entry} (h : ({} : Router).configure look s = .ok r)
    (layout : Layout) (events : List Event) :
    (r.writeAll layout events).1.files = s.filed layout events ∧
      (r.writeAll layout events).2 = s.shown layout events := by
  unfold configure at h
  cases hsink : s.sink with
  | stdout =>
      simp only [hsink] at h
      cases h
      rw [writeAll_of_stdout hsink]
      simp [Setup.filed, Setup.shown, hsink]
  | file path =>
      simp only [hsink] at h
      cases hadmits : admits look (target path) with
      | error e =>
          rw [hadmits] at h
          cases h
      | ok u =>
          rw [hadmits] at h
          cases h
          rw [writeAll_of_file hsink rfl]
          simp [Setup.filed, Setup.shown, hsink]

end Router

end Sdp.Log
