import Sdp.Proofs.Log.History
import Sdp.Proofs.Log.Written

/-!
# What a log holds after any requests

A setup stays in force until the next one that can be put in force, a logger that has been bound keeps the one
that it was bound under, and files only grow. Main statement: `Router.after_routes`.
-/

namespace Sdp.Log

/-! ## Setups -/

theorem Level.named_of_keyword {name : String} {l : Level} (h : Text.upper name.toList = l.keyword.toList) :
    named name = l := by
  unfold named Text.matchUpper
  rw [h]
  cases l <;> rfl

theorem Level.named_of_unknown {name : String}
    (h : ∀ l : Level, Text.upper name.toList ≠ l.keyword.toList) : named name = .info := by
  have hnone : Text.matchUpper all keyword name.toList = none :=
    List.find?_eq_none.mpr fun l _ => by simpa using (h l).symm
  rw [named, hnone]
  rfl

namespace Router

variable {r : Router} {p : Path} {files : List (Path × List String)}

/-! ## Files -/

theorem touch_of_mem (h : p ∈ files.map Prod.fst) : touch files p = files := by
  induction files with
  | nil => cases h
  | cons f files ih =>
      obtain ⟨q, ls⟩ := f
      rw [touch]
      split
      · rfl
      · next hne => rw [ih ((List.mem_cons.mp h).resolve_left (Ne.symm hne))]

theorem touch_of_not_mem (h : p ∉ files.map Prod.fst) : touch files p = files ++ [(p, [])] := by
  induction files with
  | nil => rfl
  | cons f files ih =>
      obtain ⟨q, ls⟩ := f
      simp only [List.map_cons, List.mem_cons, not_or] at h
      rw [touch, if_neg (Ne.symm h.1), ih h.2]
      rfl

theorem mem_touch_iff {q : Path} {ls : List String} :
    (q, ls) ∈ touch files p ↔ (q, ls) ∈ files ∨ q = p ∧ ls = [] ∧ p ∉ files.map Prod.fst := by
  by_cases h : p ∈ files.map Prod.fst
  · rw [touch_of_mem h]
    exact (or_iff_left fun hnew => hnew.2.2 h).symm
  · rw [touch_of_not_mem h, List.mem_append, List.mem_singleton, Prod.mk.injEq]
    simp only [h, not_false_eq_true, and_true]

theorem nodup_touch (h : (files.map Prod.fst).Nodup) (p : Path) : ((touch files p).map Prod.fst).Nodup := by
  by_cases hp : p ∈ files.map Prod.fst
  · rwa [touch_of_mem hp]
  · rw [touch_of_not_mem hp, List.map_append]
    refine List.nodup_append.mpr ⟨h, List.pairwise_singleton _ p, fun q hq q' hq' heq => hp ?_⟩
    obtain rfl : q' = p := List.mem_singleton.mp hq'
    exact heq ▸ hq

theorem append_eq_map (files : List (Path × List String)) (p : Path) (l : String) :
    append files p l = files.map fun (q, ls) => (q, if q = p then ls ++ [l] else ls) := by
  refine List.map_congr_left fun f _ => ?_
  dsimp only
  split <;> rfl

theorem fst_append (files : List (Path × List String)) (p : Path) (l : String) :
    (append files p l).map Prod.fst = files.map Prod.fst := by
  rw [append_eq_map, List.map_map]
  rfl

theorem mem_append_iff {l : String} {q : Path} {ls' : List String} :
    (q, ls') ∈ append files p l ↔
      ∃ ls, (q, ls) ∈ files ∧ ls' = if q = p then ls ++ [l] else ls := by
  rw [append_eq_map]
  constructor
  · intro hmem
    obtain ⟨⟨q', ls⟩, hls, heq⟩ := List.mem_map.mp hmem
    cases heq
    exact ⟨ls, hls, rfl⟩
  · rintro ⟨ls, hls, rfl⟩
    exact List.mem_map.mpr ⟨(q, ls), hls, rfl⟩

/-! ## One request -/

variable {now : Moment} {q : Request} {s : Setup} {logger : Logger} {e : Event} {layout : Layout} {l : String}

theorem install_of_writable (r : Router) {look : Path → Entry} (hs : s.Writable look) :
    r.install look s = ({ r with setup := s, files := s.file?.elim r.files (touch r.files) }, .done) := by
  unfold install configure Setup.file? Sink.path?
  cases hsink : s.sink with
  | stdout => rfl
  | file path =>
      simp only [(hs path hsink).2.2]
      rfl

theorem serve_of_setup (r : Router) (hq : q.setup? = some s) (hs : s.Writable now.look) :
    r.serve now q = ({ r with setup := s, files := s.file?.elim r.files (touch r.files) }, .done) := by
  cases q with
  | named level format output path =>
      cases hq
      exact r.install_of_writable hs
  | settings fields =>
      obtain ⟨l, hl, rfl⟩ := Option.map_eq_some_iff.mp hq
      cases hread : Settings.readLogging fields with
      | ok l' =>
          rw [hread] at hl
          cases hl
          rw [serve, hread]
          exact r.install_of_writable hs
      | error issues =>
          rw [hread] at hl
          cases hl
  | bind context => cases hq
  | write context e => cases hq
  | writeBound i e => cases hq

theorem serve_invalid (r : Router) {fields : Fields} {issues : List Settings.Issue}
    (h : Settings.readLogging fields = .error issues) :
    r.serve now (.settings fields) = (r, .invalid issues) := by
  rw [serve, h]

theorem serve_of_call? (hc : r.call? q = some (logger, e)) : r.serve now q = r.writeBy logger now.layout e := by
  cases q with
  | write context e' => simp only [serve, hc]
  | writeBound i e' => simp only [serve, hc]
  | _ => cases hc

theorem put_eq (r : Router) (sink : Sink) (l : String) :
    r.put sink l = ((sink.path?.map Path.resolve).elim (r, some l) fun p =>
      ({ r with files := append r.files p l }, none)) := by
  cases sink <;> rfl

theorem writeBy_below (he : e.level.severity < logger.setup.threshold.severity) :
    r.writeBy logger layout e = (r, .shown none) := by
  rw [writeBy, if_pos he]

theorem writeBy_tooLong (he : logger.setup.threshold.severity ≤ e.level.severity)
    (hl : line? layout logger.setup.format logger.context e = none) :
    r.writeBy logger layout e = (r, .tooLong) := by
  simp only [writeBy, if_neg (Nat.not_lt.mpr he), hl]

theorem writeBy_line (he : logger.setup.threshold.severity ≤ e.level.severity)
    (hl : line? layout logger.setup.format logger.context e = some l) :
    r.writeBy logger layout e = (logger.setup.file?.elim (r, .shown (some l)) fun p =>
      ({ r with files := append r.files p l }, .shown none)) := by
  simp only [writeBy, if_neg (Nat.not_lt.mpr he), hl, put_eq]
  rw [Setup.file?]
  cases logger.setup.sink.path? <;> rfl

/-- The file that lines of the setup are to go to is there. -/
def Opens (r : Router) (s : Setup) : Prop :=
  ∀ p, s.file? = some p → ∃ ls, (p, ls) ∈ r.files

theorem Opens.writes (hr : r.Opens logger.setup) (he : logger.setup.threshold.severity ≤ e.level.severity)
    (hl : line? layout logger.setup.format logger.context e = some l) :
    Writes logger.setup l r (r.writeBy logger layout e) := by
  rw [writeBy_line he hl]
  cases hfile : logger.setup.file? with
  | none => exact .shown hfile
  | some p => exact .filed hfile ⟨rfl, rfl, hr p hfile, fun _ _ => mem_append_iff⟩

/-! ## Requests one after another -/

/-- The log is in the state that its history says. -/
structure Follows (r : Router) (h : History) : Prop where
  setup : r.setup = h.inForce.getD ({} : Router).setup
  loggers : r.loggers = h.loggers.map fun b => ⟨b.1.getD ({} : Router).setup, b.2⟩
  nodup : (r.files.map Prod.fst).Nodup
  files : ∀ p ls, (p, ls) ∈ r.files ↔ h.Opened p ∧ ls = h.lines p

namespace Follows

variable {h : History}

theorem mem_keys_iff (hf : Follows r h) : p ∈ r.files.map Prod.fst ↔ h.Opened p := by
  constructor
  · intro hp
    obtain ⟨⟨q, ls⟩, hmem, rfl⟩ := List.mem_map.mp hp
    exact ((hf.files q ls).mp hmem).1
  · intro hp
    exact List.mem_map.mpr ⟨(p, h.lines p), (hf.files p _).mpr ⟨hp, rfl⟩, rfl⟩

theorem setup_eq (hf : Follows r h) (hs : h.inForce = some s) : r.setup = s := by
  rw [hf.setup, hs]
  rfl

theorem call?_eq (hf : Follows r h) (hc : h.call? q = some (logger, e)) : r.call? q = some (logger, e) := by
  cases q with
  | write context e' =>
      obtain ⟨s, hs, heq⟩ := Option.map_eq_some_iff.mp hc
      rw [call?, hf.setup_eq hs, ← heq]
  | writeBound i e' =>
      obtain ⟨b, hb, hsetup⟩ := Option.bind_eq_some_iff.mp hc
      obtain ⟨s, hs, heq⟩ := Option.map_eq_some_iff.mp hsetup
      rw [call?, hf.loggers, List.getElem?_map, hb, ← heq, Option.map_some, Option.map_some, hs]
      rfl
  | _ => cases hc

/-- Without a setup nothing goes to a file. -/
theorem file?_of_call? (hf : Follows r h) (hc : h.call? q = none) (hr : r.call? q = some (logger, e)) :
    logger.setup.file? = none := by
  cases q with
  | write context e' =>
      have hnone : h.inForce = none := Option.map_eq_none_iff.mp hc
      cases hr
      change r.setup.file? = none
      rw [hf.setup, hnone]
      rfl
  | writeBound i e' =>
      rw [call?, hf.loggers, List.getElem?_map, Option.map_map] at hr
      obtain ⟨b, hb, heq⟩ := Option.map_eq_some_iff.mp hr
      cases heq
      have hnone : b.1 = none := Option.map_eq_none_iff.mp (Option.bind_eq_none_iff.mp hc b hb)
      change (b.1.getD ({} : Router).setup).file? = none
      rw [hnone]
      rfl
  | _ => cases hr

/-- A request that asks for no setup, binds no logger and makes no line leaves all as it is. -/
theorem of_silent (hf : Follows r h) (hq : q.setup? = none) (hb : h.bound? q = none)
    (hlines : ∀ p, History.lineIn? h p now q = none) : Follows r (h ++ [(now, q)]) where
  setup := by
    rw [History.inForce_concat, hq]
    exact hf.setup
  loggers := by
    rw [History.loggers_concat, hb, Option.toList_none, List.append_nil]
    exact hf.loggers
  nodup := hf.nodup
  files p ls := by
    rw [hf.files, History.opened_concat, History.lines_concat, hq, hlines]
    simp

theorem of_bind (hf : Follows r h) (context : Fields) :
    Follows { r with loggers := r.loggers ++ [⟨r.setup, context⟩] } (h ++ [(now, .bind context)]) where
  setup := by
    rw [History.inForce_concat]
    exact hf.setup
  loggers := by
    rw [History.loggers_concat, List.map_append, hf.loggers, hf.setup]
    rfl
  nodup := hf.nodup
  files p ls := by
    have hsilent : History.lineIn? h p now (.bind context) = none := History.lineIn?_of_not_call? rfl p
    rw [hf.files, History.opened_concat, History.lines_concat, hsilent]
    simp [Request.setup?]

theorem of_setup (hf : Follows r h) (hq : q.setup? = some s) :
    Follows { r with setup := s, files := s.file?.elim r.files (touch r.files) } (h ++ [(now, q)]) := by
  have hforce : (h ++ [(now, q)]).inForce = some s := by rw [History.inForce_concat, hq, Option.some_or]
  have hlines (p : Path) : (h ++ [(now, q)]).lines p = h.lines p := by
    rw [History.lines_concat, History.lineIn?_of_not_call? (History.call?_of_setup hq), Option.toList_none,
      List.append_nil]
  have hopened (p : Path) : (h ++ [(now, q)]).Opened p ↔ h.Opened p ∨ s.file? = some p := by
    rw [History.opened_concat]
    simp [hq]
  constructor
  · rw [hforce]
    rfl
  · rw [History.loggers_concat, History.bound?_of_setup hq, Option.toList_none, List.append_nil]
    exact hf.loggers
  · cases s.file? with
    | none => exact hf.nodup
    | some p => exact nodup_touch hf.nodup p
  · intro p' ls
    rw [hopened, hlines]
    cases hfile : s.file? with
    | none => simpa using hf.files p' ls
    | some p =>
        rw [Option.elim_some, mem_touch_iff, hf.files, hf.mem_keys_iff, Option.some_inj]
        constructor
        · rintro (⟨ho, hl⟩ | ⟨rfl, rfl, hnew⟩)
          · exact ⟨Or.inl ho, hl⟩
          · exact ⟨Or.inr rfl, (History.lines_eq_nil hnew).symm⟩
        · rintro ⟨ho | rfl, rfl⟩
          · exact Or.inl ⟨ho, rfl⟩
          · by_cases ho : h.Opened p
            · exact Or.inl ⟨ho, rfl⟩
            -- A file that is opened for the first time has no lines yet.
            · exact Or.inr ⟨rfl, History.lines_eq_nil ho, ho⟩

theorem of_line (hf : Follows r h) (hc : h.call? q = some (logger, e)) (hp : logger.setup.file? = some p)
    (hl : h.line? now q = some l) : Follows { r with files := append r.files p l } (h ++ [(now, q)]) where
  setup := by
    rw [History.inForce_concat, History.setup?_of_call? hc]
    exact hf.setup
  loggers := by
    rw [History.loggers_concat, History.bound?_of_call? hc, Option.toList_none, List.append_nil]
    exact hf.loggers
  nodup := by
    rw [fst_append]
    exact hf.nodup
  files p' ls' := by
    have hopened := History.opened_concat h now q p'
    have hlines : (h ++ [(now, q)]).lines p' = if p' = p then h.lines p' ++ [l] else h.lines p' := by
      rw [History.lines_concat, History.lineIn?_of_call? hc, hp, hl]
      by_cases hp' : p' = p
      · simp [hp']
      · simp [hp', Ne.symm hp']
    rw [mem_append_iff, hopened, hlines, History.setup?_of_call? hc]
    simp only [hf.files, reduceCtorEq, false_and, exists_false, or_false]
    constructor
    · rintro ⟨_, ⟨ho, rfl⟩, rfl⟩
      exact ⟨ho, rfl⟩
    · rintro ⟨ho, rfl⟩
      exact ⟨_, ⟨ho, rfl⟩, rfl⟩

/-- A call that is below the threshold or cannot be written makes no line. -/
theorem of_call (hf : Follows r h) (hc : h.call? q = some (logger, e)) :
    Follows (r.writeBy logger now.layout e).1 (h ++ [(now, q)]) := by
  have hsilent (hnone : h.line? now q = none) : Follows r (h ++ [(now, q)]) :=
    hf.of_silent (History.setup?_of_call? hc) (History.bound?_of_call? hc) fun p => by
      rw [History.lineIn?_of_call? hc, hnone, ite_self]
  have hline := History.line?_of_call? hc now
  rcases Nat.lt_or_ge e.level.severity logger.setup.threshold.severity with he | he
  · rw [writeBy_below he]
    exact hsilent (hline.trans (if_neg (Nat.not_le.mpr he)))
  · rw [if_pos he] at hline
    cases hl : Log.line? now.layout logger.setup.format logger.context e with
    | none =>
        rw [writeBy_tooLong he hl]
        exact hsilent (hline.trans hl)
    | some l =>
        rw [writeBy_line he hl]
        cases hfile : logger.setup.file? with
        | none =>
            refine hf.of_silent (History.setup?_of_call? hc) (History.bound?_of_call? hc) fun p => ?_
            rw [History.lineIn?_of_call? hc, hfile]
            exact if_neg nofun
        | some p => exact hf.of_line hc hfile (hline.trans hl)

/-- A call without a setup leaves all files as they are. -/
theorem of_write (hf : Follows r h) (hq : q.setup? = none) (hb : h.bound? q = none) (hc : h.call? q = none)
    (hr : r.call? q = some (logger, e)) : Follows (r.writeBy logger now.layout e).1 (h ++ [(now, q)]) := by
  have hsilent : Follows r (h ++ [(now, q)]) := hf.of_silent hq hb (History.lineIn?_of_not_call? hc)
  rcases Nat.lt_or_ge e.level.severity logger.setup.threshold.severity with he | he
  · rw [writeBy_below he]
    exact hsilent
  · cases hl : Log.line? now.layout logger.setup.format logger.context e with
    | none =>
        rw [writeBy_tooLong he hl]
        exact hsilent
    | some l =>
        rw [writeBy_line he hl, hf.file?_of_call? hc hr]
        exact hsilent

theorem serve (hf : Follows r h) (hq : ∀ s, q.setup? = some s → s.Writable now.look) :
    Follows (r.serve now q).1 (h ++ [(now, q)]) := by
  cases hsetup : q.setup? with
  | some s =>
      rw [r.serve_of_setup hsetup (hq s hsetup)]
      exact hf.of_setup hsetup
  | none =>
      cases hc : h.call? q with
      | some c =>
          rw [serve_of_call? (hf.call?_eq hc)]
          exact hf.of_call hc
      | none =>
          have hsilent : h.bound? q = none → Follows r (h ++ [(now, q)]) := fun hb =>
            hf.of_silent hsetup hb (History.lineIn?_of_not_call? hc)
          cases q with
          | named level format output path => cases hsetup
          | settings fields =>
              cases hread : Settings.readLogging fields with
              | ok l =>
                  rw [Request.setup?, hread] at hsetup
                  cases hsetup
              | error issues =>
                  rw [serve_invalid r hread]
                  exact hsilent rfl
          | bind context => exact hf.of_bind context
          | write context e =>
              rw [serve_of_call? rfl]
              exact hf.of_write hsetup rfl hc rfl
          | writeBound i e =>
              cases hr : r.call? (.writeBound i e) with
              | some c =>
                  rw [serve_of_call? hr]
                  exact hf.of_write hsetup rfl hc hr
              | none =>
                  simp only [Router.serve, hr]
                  exact hsilent rfl

theorem opens (hf : Follows r h) (hc : h.call? q = some (logger, e)) : r.Opens logger.setup :=
  fun p hp => ⟨_, (hf.files p _).mpr ⟨History.opened_of_call? hc hp, rfl⟩⟩

end Follows

variable {h : History}

/-- What is asked for at one time is admissible if each setup is. -/
theorem admissible_of_setups (setups : List Setup) (hmoment : ∀ m ∈ h, m.1 = now)
    (hsetups : h.filterMap (·.2.setup?) = setups)
    (hs : ∀ s ∈ setups, s.format = .json ∧ s.Writable now.look) : h.Admissible := by
  intro now' q s hmem hq
  obtain rfl : now' = now := hmoment _ hmem
  subst hsetups
  exact hs s (List.mem_filterMap.mpr ⟨_, hmem, hq⟩)

theorem follows_after (hh : h.Admissible) : Follows (after h) h := by
  induction h using List.reverseRecOn with
  | nil => exact ⟨rfl, rfl, List.nodup_nil, by simp [after, History.Opened]⟩
  | append_singleton h m ih =>
      obtain ⟨now, q⟩ := m
      rw [after, List.foldl_append]
      exact (ih hh.of_append).serve fun s hs => (hh now q s (by simp) hs).2

end Router

end Sdp.Log
