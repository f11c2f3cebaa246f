import Sdp.Proofs.Data.RoundTrip
import Sdp.Proofs.Log.Order
import Sdp.Proofs.Log.Routing

/-!
# A line tells its event

Main statement: `Router.after_writes_faithful`, from the one line that is written for an event all of it can be
read back.
-/

namespace Sdp.Log

variable {context : Fields} {e : Event} {stamp : String}

/-! ## What a line is made of -/

theorem loggable_nil : Loggable [] :=
  ⟨List.nodup_nil, List.forall_mem_nil _, List.forall_mem_nil _⟩

theorem tells_record (hcontext : context.Distinct) (hfields : e.fields.Distinct) :
    Tells stamp context e (record stamp context e) := by
  have hdistinct : ((((context.merge e.fields).put "event" (.text e.name)).put "level"
      (.text e.level.word)).put "timestamp" (.text stamp)).Distinct :=
    (((hcontext.merge e.fields).put _ _).put _ _).put _ _
  have hget (name : String) : (record stamp context e).get? name =
      if name = "timestamp" then some (.text stamp)
      else if name = "level" then some (.text e.level.word)
      else if name = "event" then some (.text e.name)
      else (e.fields.get? name).or (context.get? name) := by
    rw [record, Named.get?_eq_of_perm (perm_arrange hdistinct) hdistinct, Named.get?_put, Named.get?_put,
      Named.get?_put, Named.get?_merge _ hfields]
  constructor
  · exact ((perm_arrange hdistinct).map Prod.fst).nodup_iff.mpr hdistinct
  · exact inOrder_arrange hdistinct
  · exact hget "timestamp"
  · exact hget "level"
  · exact hget "event"
  · intro name htime hlevel hevent
    rw [hget, if_neg htime, if_neg hlevel, if_neg hevent]

/-- What holds of texts and of all that is handed over holds of all that is told. -/
theorem Tells.forall_mem {fields : Fields} {P : Value → Prop} (h : Tells stamp context e fields)
    (htext : ∀ s, P (.text s)) (hcontext : ∀ field ∈ context, P field.2) (hfields : ∀ field ∈ e.fields, P field.2) :
    ∀ field ∈ fields, P field.2 := by
  rintro ⟨name, v⟩ hmem
  have hv : fields.get? name = some v := h.distinct.get?_eq_some_iff.mpr hmem
  by_cases htime : name = "timestamp"
  · subst htime
    cases h.time.symm.trans hv
    exact htext stamp
  by_cases hlevel : name = "level"
  · subst hlevel
    cases h.level.symm.trans hv
    exact htext _
  by_cases hevent : name = "event"
  · subst hevent
    cases h.event.symm.trans hv
    exact htext _
  rw [h.others name htime hlevel hevent] at hv
  rcases Option.or_eq_some_iff.mp hv with hown | ⟨-, houter⟩
  · exact hfields _ (Named.mem_of_get? hown)
  · exact hcontext _ (Named.mem_of_get? houter)

/-! ## Where it is written -/

namespace Router

variable {r : Router}

theorem eq_of_configure {r' : Router} {look : Path → Entry} {s : Setup} (h : r.configure look s = .ok r') :
    r' = { r with setup := s, files := s.file?.elim r.files (touch r.files) } := by
  unfold configure at h
  unfold Setup.file? Sink.path?
  cases hsink : s.sink with
  | stdout =>
      simp only [hsink] at h
      cases h
      rfl
  | file path =>
      simp only [hsink] at h
      cases hadmits : admits look (target path) with
      | error refusal =>
          rw [hadmits] at h
          cases h
      | ok u =>
          rw [hadmits] at h
          cases h
          rfl

theorem Opens.mono {r' : Router} {s : Setup} (hr : r.Opens s)
    (hfiles : ∀ p ls, (p, ls) ∈ r.files → ∃ ls', (p, ls') ∈ r'.files) : r'.Opens s := by
  intro p hp
  obtain ⟨ls, hls⟩ := hr p hp
  exact hfiles p ls hls

/-- The files of the setup in force and of every logger are there. -/
structure Ready (r : Router) : Prop where
  setup : r.Opens r.setup
  loggers : ∀ logger ∈ r.loggers, r.Opens logger.setup

namespace Ready

theorem opens {q : Request} {logger : Logger} (hr : r.Ready) (hc : r.call? q = some (logger, e)) :
    r.Opens logger.setup := by
  cases q with
  | write context e' =>
      cases hc
      exact hr.setup
  | writeBound i e' =>
      obtain ⟨b, hb, heq⟩ := Option.map_eq_some_iff.mp hc
      cases heq
      exact hr.loggers _ (List.mem_of_getElem? hb)
  | _ => cases hc

theorem install (hr : r.Ready) (look : Path → Entry) (s : Setup) : (r.install look s).1.Ready := by
  unfold Router.install
  split
  · next r' h =>
      obtain rfl := eq_of_configure h
      have hkept (p : Path) (ls : List String) (hls : (p, ls) ∈ r.files) :
          ∃ ls', (p, ls') ∈ s.file?.elim r.files (touch r.files) := by
        cases s.file? with
        | none => exact ⟨ls, hls⟩
        | some p' => exact ⟨ls, mem_touch_iff.mpr (Or.inl hls)⟩
      refine ⟨fun p hp => ?_, fun logger hlogger => (hr.loggers logger hlogger).mono hkept⟩
      change s.file? = some p at hp
      rw [hp, Option.elim_some]
      by_cases hmem : p ∈ r.files.map Prod.fst
      · obtain ⟨⟨q, ls⟩, hls, rfl⟩ := List.mem_map.mp hmem
        exact ⟨ls, mem_touch_iff.mpr (Or.inl hls)⟩
      · exact ⟨[], mem_touch_iff.mpr (Or.inr ⟨rfl, rfl, hmem⟩)⟩
  · exact hr

theorem grows {p : Path} {l : String} {r' : Router} (hr : r.Ready) (h : Grows p l r r') : r'.Ready := by
  have hkept (q : Path) (ls : List String) (hls : (q, ls) ∈ r.files) : ∃ ls', (q, ls') ∈ r'.files :=
    ⟨_, (h.files q _).mpr ⟨ls, hls, rfl⟩⟩
  refine ⟨?_, fun logger hlogger => ?_⟩
  · rw [h.setup]
    exact hr.setup.mono hkept
  · rw [h.loggers] at hlogger
    exact (hr.loggers logger hlogger).mono hkept

theorem writeBy {logger : Logger} (hr : r.Ready) (hlogger : r.Opens logger.setup) (layout : Layout) (e : Event) :
    (r.writeBy logger layout e).1.Ready := by
  rcases Nat.lt_or_ge e.level.severity logger.setup.threshold.severity with he | he
  · rw [writeBy_below he]
    exact hr
  cases hl : line? layout logger.setup.format logger.context e with
  | none =>
      rw [writeBy_tooLong he hl]
      exact hr
  | some l =>
      have hwrites := hlogger.writes he hl
      generalize r.writeBy logger layout e = out at hwrites
      cases hwrites with
      | shown stdout => exact hr
      | filed file grows => exact hr.grows grows

theorem serve (hr : r.Ready) (now : Moment) (q : Request) : (r.serve now q).1.Ready := by
  cases hc : r.call? q with
  | some c =>
      rw [serve_of_call? hc]
      exact hr.writeBy (hr.opens hc) now.layout c.2
  | none =>
      cases q with
      | named level format output path => exact hr.install now.look _
      | settings fields =>
          rw [Router.serve]
          split
          · exact hr.install now.look _
          · exact hr
      | bind context =>
          refine ⟨hr.setup, fun logger hlogger => ?_⟩
          rcases List.mem_append.mp hlogger with hold | hnew
          · exact hr.loggers logger hold
          · obtain rfl := List.mem_singleton.mp hnew
            exact hr.setup
      | write context e => cases hc
      | writeBound i e =>
          simp only [Router.serve, hc]
          exact hr

end Ready

theorem ready_after (h : History) : (after h).Ready := by
  induction h using List.reverseRecOn with
  | nil => exact ⟨nofun, nofun⟩
  | append_singleton h m ih =>
      rw [after, List.foldl_append]
      exact ih.serve m.1 m.2

/-- Whatever has been asked of a log, an event without long integers that reaches the threshold of its logger
becomes one line of JSON with no character below the space, and from that line all it says is read back. -/
theorem after_writes_faithful {h : History} {q : Request} {logger : Logger}
    (hcall : (after h).call? q = some (logger, e)) (hformat : logger.setup.format = .json)
    (he : logger.setup.threshold.severity ≤ e.level.severity) (hcontext : Loggable logger.context)
    (hfields : Loggable e.fields) (hshort : ∀ field ∈ logger.context ++ e.fields, field.2.Short) (now : Moment) :
    ∃ l decoded, Writes logger.setup l (after h) ((after h).serve now q) ∧
      Text.Visible l.toList ∧ Json.read? l.toList = some (.record decoded) ∧
      Tells now.layout.stamp logger.context e decoded := by
  have htells : Tells now.layout.stamp logger.context e (record now.layout.stamp logger.context e) :=
    tells_record hcontext.distinct hfields.distinct
  obtain ⟨hcontextShort, hfieldsShort⟩ := List.forall_mem_append.mp hshort
  have hrecord : (Value.record (record now.layout.stamp logger.context e)).Short :=
    .record (htells.forall_mem .text hcontextShort hfieldsShort)
  have hplain := htells.forall_mem .text hcontext.plain hfields.plain
  refine ⟨line now.layout logger.setup.format logger.context e, _, ?_, ?_, ?_, htells⟩
  · rw [serve_of_call? hcall]
    exact ((ready_after h).opens hcall).writes he (line?_of_short hrecord _)
  · rw [hformat, line, String.toList_ofList]
    exact Json.visible_layOut _
  · rw [hformat, line, String.toList_ofList]
    exact Json.read?_layOut (.record hplain)

/-- An integer can be too long for any line, and a call about an exception says more than it is told. -/
theorem not_faithful_of_any :
    (¬ ∀ (h : History) now q logger e, (after h).call? q = some (logger, e) → logger.setup.format = .json →
      logger.setup.threshold.severity ≤ e.level.severity → Loggable logger.context → Loggable e.fields →
      ∃ l, Writes logger.setup l (after h) ((after h).serve now q)) ∧
    ¬ ∀ layout name fields l decoded, Loggable fields →
      line? layout .json [] (.exception name fields) = some l → Json.read? l.toList = some (.record decoded) →
      Tells layout.stamp [] ⟨.error, name, fields⟩ decoded := by
  refine ⟨fun hwrite => ?_, fun htells => ?_⟩
  · let now : Moment := ⟨fun _ => .missing, ⟨"now", fun _ => ""⟩⟩
    let h : History := [(now, .named "INFO" "json" "stdout" none)]
    let e : Event := ⟨.error, "x", [("n", .int (Nat.pow 10 4300))]⟩
    have hfields : Loggable e.fields := ⟨by decide, by decide, List.forall_mem_singleton.mpr (.int _)⟩
    have hlong : ¬ (Value.record (record "now" [] e)).Short := mt (Json.fits_iff _).mpr (by decide +kernel)
    have hreply : (after h).serve now (.write [] e) = (after h, .tooLong) :=
      (serve_of_call? rfl).trans (writeBy_tooLong (by decide) (line?_eq_none hlong _))
    obtain ⟨l, hwrites⟩ := hwrite h now (.write [] e) _ e rfl rfl (by decide) loggable_nil hfields
    rw [hreply] at hwrites
    cases hwrites
  · let layout : Layout := ⟨"now", fun _ => ""⟩
    let e : Event := .exception "boom" []
    have hshort : (Value.record (record "now" [] e)).Short := (Json.fits_iff _).mp (by decide +kernel)
    have hmarked : Tells "now" [] e (record "now" [] e) := tells_record (by decide) (by decide)
    have hplain : ∀ field ∈ record "now" [] e, field.2.Plain :=
      hmarked.forall_mem .text (List.forall_mem_nil _) (List.forall_mem_singleton.mpr (.bool true))
    have hread := Json.read?_layOut (.record hplain)
    have hboom := htells layout "boom" [] _ _ loggable_nil (line?_of_short hshort _)
      (by rw [line, String.toList_ofList]; exact hread)
    have hmark := (hboom.others "exc_info" (by decide) (by decide) (by decide)).symm.trans
      (hmarked.others "exc_info" (by decide) (by decide) (by decide))
    cases hmark

/-- A nested value, a name that stands on both sides, and a caller who gives the level and the time. -/
theorem after_writes_faithful_of_nested :
    let now : Moment := ⟨fun _ => .missing, ⟨"noon", fun _ => ""⟩⟩
    let peer : Value := .record [("b", .list [.null, .bool true, .text "\"\n"]), ("a", .int (-3))]
    let context : Fields := [("request", .int 7), ("level", .text "mine")]
    let h : History := [(now, .named "info" "json" "file" (some "a.log")), (now, .bind context),
      (now, .named "error" "text" "stdout" none)]
    let e : Event := ⟨.warning, "odd \"line\"", [("peer", peer), ("timestamp", .null), ("request", .int 8)]⟩
    let logger : Logger := ⟨⟨.info, .json, .file "a.log"⟩, context⟩
    (after h).call? (.writeBound 0 e) = some (logger, e) ∧ Loggable context ∧ Loggable e.fields ∧
      (∀ field ∈ context ++ e.fields, field.2.Short) ∧
      ∃ l, ∃ decoded : Fields, Writes logger.setup l (after h) ((after h).serve now (.writeBound 0 e)) ∧
        Json.read? l.toList = some (.record decoded) ∧ decoded.get? "level" = some (.text "warning") ∧
        decoded.get? "timestamp" = some (.text "noon") ∧ decoded.get? "request" = some (.int 8) ∧
        decoded.get? "peer" = some peer := by
  intro now peer context h e logger
  have hcall : (after h).call? (.writeBound 0 e) = some (logger, e) := rfl
  have hpeer : peer.Plain := by
    refine .record (List.forall_mem_cons.mpr ⟨.list ?_, List.forall_mem_singleton.mpr (.int _)⟩)
    simp [Value.Plain.null, Value.Plain.bool, Value.Plain.text]
  have hcontext : Loggable context :=
    ⟨by decide, by decide, by simp [context, Value.Plain.int, Value.Plain.text]⟩
  have hfields : Loggable e.fields :=
    ⟨by decide, by decide, by simp [e, hpeer, Value.Plain.int, Value.Plain.null]⟩
  have hshort : ∀ field ∈ context ++ e.fields, field.2.Short := by
    have hfits : ∀ field ∈ context ++ e.fields, Json.fits field.2 := by decide +kernel
    exact fun field hfield => (Json.fits_iff _).mp (hfits field hfield)
  obtain ⟨l, decoded, hwrites, -, hread, htells⟩ :=
    after_writes_faithful hcall rfl (by decide) hcontext hfields hshort now
  refine ⟨hcall, hcontext, hfields, hshort, l, decoded, hwrites, hread, htells.level, htells.time, ?_, ?_⟩
  · exact (htells.others "request" (by decide) (by decide) (by decide)).trans rfl
  · exact (htells.others "peer" (by decide) (by decide) (by decide)).trans rfl

end Router

end Sdp.Log
