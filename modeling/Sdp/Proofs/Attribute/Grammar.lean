import Mathlib.Data.List.Nodup
import Sdp.Attribute.Grammar
import Sdp.Proofs.Attribute.Spelling
import Sdp.Proofs.Attribute.Unsupported
import Sdp.Proofs.Numeral.Grammar
import Sdp.Proofs.Text.Ascii
import Sdp.Proofs.Text.Spelling

/-!
# Candidates are read by their grammar

The reader goes from left to right and stops at the first token that breaks its rule. Main statement:
`Candidate.read_grammar`.
-/

namespace Sdp

open Text (words IsLowerSpelling)

variable {α β : Type}

/-! ## Tokens -/

/-- A token is read as what it means; one that means nothing is blamed as it stands. -/
structure Decides (Means : α → Prop) (w : List Char) (r : Reading α) : Prop where
  ok_iff : ∀ a, r = .ok a ↔ Means a
  text : ∀ e, r = .error e → e.text.toList = w

theorem Decides.cases {Means : α → Prop} {w : List Char} {r : Reading α} (h : Decides Means w r) :
    (∃ a, r = .ok a ∧ Means a) ∨ ((∀ a, ¬ Means a) ∧ ∃ e, r = .error e ∧ e.text.toList = w) := by
  cases hr : r with
  | ok a => exact Or.inl ⟨a, rfl, (h.ok_iff a).mp hr⟩
  | error e =>
      refine Or.inr ⟨fun a ha => ?_, e, rfl, h.text e hr⟩
      cases hr.symm.trans ((h.ok_iff a).mpr ha)

theorem text_fault {κ : Type} (cause : κ) (w : List Char) : (fault cause w).text.toList = w := by
  rw [fault, String.toList_ofList]

theorem Quantity.holds_iff_of_isPort {q : Quantity} (hq : q.isPort) (n : Nat) :
    q.Holds n ↔ n < 0x10000 :=
  ⟨fun h => h.2 hq, q.holds_of_port⟩

theorem Quantity.holds_iff_of_not_isPort {q : Quantity} (hq : q.isPort = false) (n : Nat) :
    q.Holds n ↔ n < q.bound :=
  and_iff_left fun h => absurd (hq.symm.trans h) Bool.false_ne_true

theorem Quantity.decides_read (q : Quantity) {bound : Nat} (h : ∀ n, q.Holds n ↔ n < bound) (w : List Char) :
    Decides (Candidate.IsNumber bound w) w (q.read w) where
  ok_iff n := by rw [read_eq_ok_iff, h, Candidate.IsNumber]
  text e he := by
    obtain ⟨d, -, rfl⟩ := read_eq_error_iff.mp he
    exact text_fault _ w

theorem matchLower_eq_some_iff {all : List α} {word : α → String} (h : Spelled (Text.matchLower all word) word)
    {w : List Char} {a : α} : Text.matchLower all word w = some a ↔ Text.lower w = (word a).toList := by
  have hfound {v : List Char} (ha : Text.matchLower all word v = some a) : (word a).toList = Text.lower v := by
    simpa using List.find?_some ha
  constructor
  · intro ha
    exact (hfound ha).symm
  · intro ha
    rw [← h.find a, Text.matchLower, Text.matchLower, ha, ← hfound (h.find a)]

theorem Keyword.decides_read (k : Keyword) {all : List α} {word : α → String}
    (h : Spelled (Text.matchLower all word) word) (hplain : ∀ a, Text.Plain (word a).toList)
    (w : List Char) :
    Decides (Candidate.IsWordOf word w) w (k.read all word w) where
  ok_iff a := by
    rw [Candidate.IsWordOf, ← Text.lower_eq_iff_isLowerSpelling (hplain a), ← matchLower_eq_some_iff h, read]
    cases Text.matchLower all word w <;> simp
  text e he := by
    unfold read at he
    split at he
    · cases he
    · cases he
      exact text_fault _ w

theorem decides_readAddress (w : List Char) : Decides (Candidate.IsAddress w) w (readAddress w) where
  ok_iff _ := widen_eq_ok_iff
  text e he := by
    unfold readAddress Network.readAnyAddress at he
    cases hr : Network.readAddress (if '.' ∈ w then .ip4 else .ip6) w with
    | ok a =>
        rw [hr] at he
        cases he
    | error f =>
        rw [hr] at he
        cases he
        rw [Fault.map, Network.text_of_readAddress hr, String.toList_ofList]

namespace Candidate

/-! ## The tokens in front -/

section Checks

variable {rule : List Char → Prop} {rules : List (List Char → Prop)} {w : List Char}
  {tokens : List (List Char)} {Q : β → Prop}

/-- All tokens keep their rules and the value is as `Q` says, or the first that does not is blamed. -/
def Checks (rules : List (List Char → Prop)) (tokens : List (List Char)) (Q : β → Prop) :
    Reading β → Prop
  | .ok b => Kept rules tokens ∧ Q b
  | .error e => FirstBroken rules tokens e.text.toList

theorem Checks.pass {r : Reading β} (hw : rule w) (h : Checks rules tokens Q r) :
    Checks (rule :: rules) (w :: tokens) Q r := by
  cases r with
  | ok b => exact ⟨.cons hw h.1, h.2⟩
  | error e => exact .later hw h

theorem Checks.bind {Means : α → Prop} {r : Reading α} {f : α → Reading β} (h : Decides Means w r)
    (hrule : rule w ↔ ∃ a, Means a) (hf : ∀ a, Means a → Checks rules tokens Q (f a)) :
    Checks (rule :: rules) (w :: tokens) Q (r >>= f) := by
  rcases h.cases with ⟨a, rfl, ha⟩ | ⟨hnone, e, rfl, htext⟩
  · exact .pass (hrule.mpr ⟨a, ha⟩) (hf a ha)
  · have hbroken : ¬ rule w := fun hw => by
      obtain ⟨a, ha⟩ := hrule.mp hw
      exact hnone a ha
    change FirstBroken _ _ e.text.toList
    rw [htext]
    exact .here hbroken

end Checks

theorem isOneOf_iff {word : α → String} {all : List α} (h : Spelled (Text.matchLower all word) word)
    {ws : List String} (hws : all.map word = ws) {w : List Char} :
    IsOneOf ws w ↔ ∃ a, IsWordOf word w a := by
  subst hws
  constructor
  · rintro ⟨v, hv, hw⟩
    obtain ⟨a, -, rfl⟩ := List.mem_map.mp hv
    exact ⟨a, hw⟩
  · rintro ⟨a, ha⟩
    exact ⟨word a, List.mem_map.mpr ⟨a, List.mem_of_find?_eq_some (h.find a), rfl⟩, ha⟩

theorem plain_transport (t : Transport) : Text.Plain t.word.toList := by
  cases t <;> decide

theorem plain_candidateType (t : CandidateType) : Text.Plain t.word.toList := by
  cases t <;> decide

theorem plain_tcpType (t : TcpType) : Text.Plain t.word.toList := by
  cases t <;> decide

theorem plain_extension (e : Extension) : Text.Plain e.word.toList := by
  cases e <;> decide

/-- The fixed word before the type of a candidate. -/
theorem typ_spelled : Spelled (Text.matchLower [()] fun _ => "typ") (fun _ => "typ") :=
  ⟨fun _ => by decide, fun _ => rfl⟩

theorem plain_typ : Text.Plain "typ".toList := by
  decide

/-- The fields of the tokens, and no extensions yet. -/
def FreshFieldsOf (tokens : List (List Char)) (c : Candidate) : Prop :=
  FieldsOf tokens c ∧ ∀ e, c.extension e = none

theorem checks_readMandatory (value : List Char) {tokens : List (List Char)}
    (h : tokens.length = mandatoryTokens) :
    Checks mandatoryRules tokens (FreshFieldsOf tokens) (readMandatory value tokens) := by
  match tokens, h with
  | [foundation, component, transport, priority, address, port, typ, type], _ =>
      refine .pass trivial ?_
      refine .bind (Quantity.decides_read _ (Quantity.holds_iff_of_not_isPort rfl) component) Iff.rfl
        fun n hn => ?_
      refine .bind (Keyword.decides_read _ Transport.spelled plain_transport transport)
        (isOneOf_iff Transport.spelled rfl) fun t ht => ?_
      refine .bind (Quantity.decides_read _ (Quantity.holds_iff_of_not_isPort rfl) priority) Iff.rfl
        fun m hm => ?_
      refine .bind (decides_readAddress address) Iff.rfl fun a ha => ?_
      refine .bind (Quantity.decides_read _ (Quantity.holds_iff_of_isPort rfl) port) Iff.rfl
        fun q hq => ?_
      refine .bind (Keyword.decides_read _ typ_spelled (fun _ => plain_typ) typ) (isOneOf_iff typ_spelled rfl)
        fun _ _ => ?_
      refine .bind (Keyword.decides_read _ CandidateType.spelled plain_candidateType type)
        (isOneOf_iff CandidateType.spelled rfl) fun k hk => ?_
      refine ⟨.nil, ?_, by rintro ⟨⟩ <;> rfl⟩
      exact
        { foundation := by simp, component := ⟨_, rfl, hn⟩, transport := ⟨_, rfl, ht⟩
          priority := ⟨_, rfl, hm⟩, address := ⟨_, rfl, ha⟩, port := ⟨_, rfl, hq⟩, type := ⟨_, rfl, hk⟩ }

/-! ## One pair -/

theorem Extension.ofName?_eq_some_iff {w : List Char} {e : Extension} : ofName? w = some e ↔ e.IsNamed w := by
  rw [IsNamed, ← Text.lower_eq_iff_isLowerSpelling (plain_extension e)]
  exact matchLower_eq_some_iff Extension.spelled

theorem Extension.IsNamed.unique {w : List Char} {e e' : Extension} (h : e.IsNamed w) (h' : e'.IsNamed w) :
    e = e' :=
  Option.some.inj ((ofName?_eq_some_iff.mpr h).symm.trans (ofName?_eq_some_iff.mpr h'))

theorem Extension.Means.unique {e : Extension} {w : List Char} {a b : e.Value} (ha : e.Means w a)
    (hb : e.Means w b) : a = b := by
  cases e with
  | remoteAddress => exact Except.ok.inj (Eq.trans (Eq.symm ha) hb)
  | remotePort => exact ha.1.unique hb.1
  | tcpType =>
      have hread := ((Keyword.tcpType).decides_read TcpType.spelled plain_tcpType w).ok_iff
      exact Except.ok.inj (((hread a).mpr ha).symm.trans ((hread b).mpr hb))

/-- A candidate with a new value of an extension. -/
def put (c : Candidate) : (e : Extension) → e.Value → Candidate
  | .remoteAddress, a => { c with remoteAddress := some a }
  | .remotePort, p => { c with remotePort := some p }
  | .tcpType, t => { c with tcpType := some t }

/-- A candidate without extensions. -/
def base (c : Candidate) : Candidate :=
  { c with remoteAddress := none, remotePort := none, tcpType := none }

theorem base_put (c : Candidate) (e : Extension) (a : e.Value) : (c.put e a).base = c.base := by
  cases e <;> rfl

theorem extension_put_self (c : Candidate) (e : Extension) (a : e.Value) :
    (c.put e a).extension e = some a := by
  cases e <;> rfl

theorem extension_put_of_ne (c : Candidate) {e e' : Extension} (h : e ≠ e') (a : e.Value) :
    (c.put e a).extension e' = c.extension e' := by
  cases e <;> cases e' <;> first | rfl | exact absurd rfl h

theorem ext_of_base {c c' : Candidate} (hbase : c.base = c'.base)
    (hextension : ∀ e, c.extension e = c'.extension e) : c = c' := by
  have haddress : c.remoteAddress = c'.remoteAddress := hextension .remoteAddress
  have hport : c.remotePort = c'.remotePort := hextension .remotePort
  have htcp : c.tcpType = c'.tcpType := hextension .tcpType
  cases c
  cases c'
  simp only [base, mk.injEq] at hbase haddress hport htcp ⊢
  exact ⟨hbase.1, hbase.2.1, hbase.2.2.1, hbase.2.2.2.1, hbase.2.2.2.2.1, hbase.2.2.2.2.2.1,
    hbase.2.2.2.2.2.2.1, haddress, hport, htcp⟩

theorem Decides.cases_bind {Means : α → Prop} {w : List Char} {r : Reading α} (h : Decides Means w r)
    (g : α → β) :
    (∃ a, Means a ∧ (r >>= fun a => pure (g a)) = .ok (g a)) ∨
    ((∀ a, ¬ Means a) ∧ ∃ e, (r >>= fun a => pure (g a)) = .error e ∧ e.text.toList = w) := by
  rcases h.cases with ⟨a, rfl, ha⟩ | ⟨hnone, e, rfl, htext⟩
  · exact Or.inl ⟨a, ha, rfl⟩
  · exact Or.inr ⟨hnone, e, rfl, htext⟩

theorem Extension.apply_means (e : Extension) (value : List Char) (c : Candidate) :
    (∃ a, e.Means value a ∧ e.apply value c = .ok (c.put e a)) ∨
    ((∀ a, ¬ e.Means value a) ∧ ∃ f, e.apply value c = .error f ∧ f.text.toList = value) := by
  cases e with
  | remoteAddress => exact Decides.cases_bind (decides_readAddress value) (c.put .remoteAddress)
  | remotePort =>
      exact Decides.cases_bind (Quantity.decides_read _ (Quantity.holds_iff_of_isPort rfl) value)
        (c.put .remotePort)
  | tcpType =>
      exact Decides.cases_bind (Keyword.decides_read _ TcpType.spelled plain_tcpType value)
        (c.put .tcpType)

/-- Reads one pair of extension name and value. -/
def readPair (c : Candidate) (p : Pair) : Reading Candidate :=
  match Extension.ofName? p.1 with
  | none => .error (fault .unknownExtension p.1)
  | some e => e.apply p.2 c

theorem readPair_cases (c : Candidate) (p : Pair) :
    (∃ e a, e.IsNamed p.1 ∧ e.Means p.2 a ∧ readPair c p = .ok (c.put e a)) ∨
    ∃ f, readPair c p = .error f ∧ PairBroken p f.text.toList := by
  unfold readPair
  cases he : Extension.ofName? p.1 with
  | none =>
      refine Or.inr ⟨_, rfl, ?_⟩
      rw [text_fault]
      refine .name fun e hnamed => ?_
      cases he.symm.trans (Extension.ofName?_eq_some_iff.mpr hnamed)
  | some e =>
      have hnamed := Extension.ofName?_eq_some_iff.mp he
      rcases e.apply_means p.2 c with ⟨a, ha, happly⟩ | ⟨hnone, f, happly, htext⟩
      · exact Or.inl ⟨e, a, hnamed, ha, happly⟩
      · refine Or.inr ⟨f, happly, ?_⟩
        rw [htext]
        exact .value e hnamed hnone

/-! ## All pairs -/

theorem readExtensions_eq_foldlM (c : Candidate) (tokens : List (List Char)) :
    readExtensions c tokens = (pairs tokens).foldlM readPair c := by
  fun_induction readExtensions c tokens with
  | case1 c name value rest he =>
      simp only [pairs, List.foldlM_cons, readPair, he]
      rfl
  | case2 c name value rest e he ih =>
      simp only [pairs, List.foldlM_cons, readPair, he]
      exact bind_congr ih
  | case3 tokens c hshort =>
      rw [pairs.eq_2 tokens hshort]
      rfl

/-- All pairs of a list have been read into a candidate: the last one of each name counts. -/
structure Extended (c : Candidate) (ps : List Pair) (c' : Candidate) : Prop where
  kept : ∀ p ∈ ps, PairKept p
  base : c'.base = c.base
  last : ∀ e, ((∀ p ∈ ps, ¬ e.IsNamed p.1) ∧ c'.extension e = c.extension e) ∨
    ∃ a, c'.extension e = some a ∧ IsLast e ps a

theorem IsLast.cons {e : Extension} {ps : List Pair} {a : e.Value} (h : IsLast e ps a) (p : Pair) :
    IsLast e (p :: ps) a := by
  obtain ⟨front, q, back, rfl, hq⟩ := h
  exact ⟨p :: front, q, back, rfl, hq⟩

theorem Extended.cons {c c' : Candidate} {ps : List Pair} {p : Pair} {e : Extension} {a : e.Value}
    (hnamed : e.IsNamed p.1) (ha : e.Means p.2 a) (h : Extended (c.put e a) ps c') :
    Extended c (p :: ps) c' where
  kept := List.forall_mem_cons.mpr ⟨⟨e, hnamed, a, ha⟩, h.kept⟩
  base := h.base.trans (base_put c e a)
  last e' := by
    rcases h.last e' with ⟨hnone, hextension⟩ | ⟨b, hextension, hlast⟩
    · by_cases he : e = e'
      · subst he
        rw [extension_put_self] at hextension
        exact Or.inr ⟨a, hextension, [], p, ps, rfl, hnamed, ha, hnone⟩
      · rw [extension_put_of_ne c he] at hextension
        refine Or.inl ⟨List.forall_mem_cons.mpr ⟨fun hnamed' => ?_, hnone⟩, hextension⟩
        exact he (hnamed.unique hnamed')
    · exact Or.inr ⟨b, hextension, hlast.cons p⟩

/-- The pairs are read from left to right up to the first that is not kept. -/
theorem readPairs_cases (ps : List Pair) (c : Candidate) :
    (∃ c', ps.foldlM readPair c = .ok c' ∧ Extended c ps c') ∨
    ∃ f, ps.foldlM readPair c = .error f ∧ ∃ before p after, ps = before ++ p :: after ∧
      (∀ q ∈ before, PairKept q) ∧ PairBroken p f.text.toList := by
  induction ps generalizing c with
  | nil => exact Or.inl ⟨c, rfl, by simp, rfl, fun e => Or.inl ⟨by simp, rfl⟩⟩
  | cons p ps ih =>
      rw [List.foldlM_cons]
      rcases readPair_cases c p with ⟨e, a, hnamed, ha, hread⟩ | ⟨f, hread, hbroken⟩
      · rw [hread]
        rcases ih (c.put e a) with ⟨c', hc', hextended⟩ | ⟨f, hf, before, q, after, rfl, hbefore, hq⟩
        · exact Or.inl ⟨c', hc', hextended.cons hnamed ha⟩
        · refine Or.inr ⟨f, hf, p :: before, q, after, rfl, ?_, hq⟩
          exact List.forall_mem_cons.mpr ⟨⟨e, hnamed, a, ha⟩, hbefore⟩
      · rw [hread]
        exact Or.inr ⟨f, rfl, [], p, ps, rfl, List.forall_mem_nil _, hbroken⟩

theorem not_pairKept_of_pairBroken {p : Pair} {w : List Char} (h : PairBroken p w) : ¬ PairKept p := by
  rintro ⟨e, hnamed, a, ha⟩
  cases h with
  | value e' known h =>
      obtain rfl := known.unique hnamed
      exact h a ha
  | name h => exact h e hnamed

/-- Where all other tokens keep their rules, a new one decides. -/
theorem kept_set_iff {rules : List (List Char → Prop)} {tokens : List (List Char)} (h : Kept rules tokens)
    {i : Nat} {rule : List Char → Prop} (hrule : rules[i]? = some rule) (w : List Char) :
    Kept rules (tokens.set i w) ↔ rule w := by
  unfold Kept at h ⊢
  induction h generalizing i with
  | nil => cases hrule
  | cons hhead htail ih =>
      cases i with
      | zero =>
          cases hrule
          exact List.forall₂_cons.trans (and_iff_left htail)
      | succ i => exact List.forall₂_cons.trans ((and_iff_right hhead).trans (ih hrule))

theorem Kept.rule {rules : List (List Char → Prop)} {tokens : List (List Char)} (h : Kept rules tokens)
    {i : Nat} {rule : List Char → Prop} {w : List Char} (hrule : rules[i]? = some rule)
    (hw : tokens[i]? = some w) : rule w := by
  obtain ⟨hi, rfl⟩ := List.getElem?_eq_some_iff.mp hw
  refine (kept_set_iff h hrule _).mp ?_
  rwa [List.set_getElem_self]

theorem length_of_kept {tokens : List (List Char)} (h : Kept mandatoryRules tokens) :
    tokens.length = mandatoryTokens :=
  h.length_eq.symm

theorem not_kept_of_firstBroken {rules : List (List Char → Prop)} {tokens : List (List Char)} {w : List Char}
    (h : FirstBroken rules tokens w) : ¬ Kept rules tokens := by
  induction h with
  | here h =>
      rintro (_ | ⟨hrule, -⟩)
      exact h hrule
  | later _ _ ih =>
      rintro (_ | ⟨-, hrest⟩)
      exact ih hrest

theorem Offends.not_kept {front : List (List Char)} {ps : List Pair} {w : List Char} (h : Offends front ps w) :
    ¬ (Kept mandatoryRules front ∧ ∀ p ∈ ps, PairKept p) := by
  rintro ⟨hfront, hpairs⟩
  cases h with
  | token h => exact not_kept_of_firstBroken h hfront
  | pair _ hps _ hp => exact not_pairKept_of_pairBroken hp (hpairs _ (by simp [hps]))

/-! ## Candidates -/

theorem fieldsOf_base {tokens : List (List Char)} {c : Candidate} : FieldsOf tokens c.base ↔ FieldsOf tokens c :=
  ⟨fun h => ⟨h.foundation, h.component, h.transport, h.priority, h.address, h.port, h.type⟩,
    fun h => ⟨h.foundation, h.component, h.transport, h.priority, h.address, h.port, h.type⟩⟩

theorem Extended.holdsLast {c c' : Candidate} {ps : List Pair} (h : Extended c ps c')
    (hfresh : ∀ e, c.extension e = none) (e : Extension) : HoldsLast e ps (c'.extension e) := by
  rcases h.last e with ⟨hnone, hextension⟩ | ⟨a, hextension, hlast⟩
  · rw [hextension, hfresh]
    exact hnone
  · rw [hextension]
    exact hlast

/-- With distinct names it makes no difference in which order the pairs stand. -/
theorem HoldsLast.unique_of_perm {e : Extension} {ps qs : List Pair} {x y : Option e.Value}
    (hx : HoldsLast e ps x) (hy : HoldsLast e qs y) (hperm : qs.Perm ps)
    (hnodup : (ps.map fun p => Text.lower p.1).Nodup) : x = y := by
  cases x with
  | none =>
      cases y with
      | none => rfl
      | some b =>
          obtain ⟨front, p, back, rfl, hp, -⟩ := hy
          exact absurd hp (hx p (hperm.subset (by simp)))
  | some a =>
      obtain ⟨front, p, back, rfl, hp, ha, -⟩ := hx
      cases y with
      | none => exact absurd hp (hy p (hperm.symm.subset (by simp)))
      | some b =>
          obtain ⟨front', q, back', rfl, hq, hb, -⟩ := hy
          -- Both pairs have the name of the extension in lower case, and so they are one pair.
          have hname {r : Pair} (hr : e.IsNamed r.1) : Text.lower r.1 = e.word.toList :=
            (Text.lower_eq_iff_isLowerSpelling (plain_extension e) _).mpr hr
          obtain rfl : p = q := List.inj_on_of_nodup_map hnodup (by simp)
            (hperm.subset (by simp)) ((hname hp).trans (hname hq).symm)
          rw [ha.unique hb]

theorem readMandatory_of_short {value : List Char} {tokens : List (List Char)}
    (h : tokens.length < mandatoryTokens) :
    readMandatory value tokens = .error (fault (.tokens .candidate) value) := by
  unfold readMandatory
  split
  · exact absurd h (Nat.lt_irrefl _)
  · rfl

theorem read_outcome {value : List Char} (h : mandatoryTokens ≤ (words value).length) :
    (∃ c₀ c, readMandatory value ((words value).take mandatoryTokens) = .ok c₀ ∧ read value = .ok c ∧
      Kept mandatoryRules ((words value).take mandatoryTokens) ∧
      FreshFieldsOf ((words value).take mandatoryTokens) c₀ ∧
      Extended c₀ (pairs ((words value).drop mandatoryTokens)) c) ∨
    ∃ e, read value = .error e ∧ Offends ((words value).take mandatoryTokens)
      (pairs ((words value).drop mandatoryTokens)) e.text.toList := by
  have hchecks := checks_readMandatory value (List.length_take_of_le h)
  rw [read_eq]
  cases hmandatory : readMandatory value ((words value).take mandatoryTokens) with
  | error e =>
      rw [hmandatory] at hchecks
      exact Or.inr ⟨e, rfl, .token hchecks⟩
  | ok c₀ =>
      rw [hmandatory] at hchecks
      obtain ⟨hkept, hfields⟩ := hchecks
      change (∃ c₁ c, _ ∧ readExtensions c₀ _ = .ok c ∧ _) ∨ ∃ e, readExtensions c₀ _ = .error e ∧ _
      rw [readExtensions_eq_foldlM]
      rcases readPairs_cases (pairs ((words value).drop mandatoryTokens)) c₀ with
        ⟨c, hc, hextended⟩ | ⟨f, hf, before, p, after, hps, hbefore, hp⟩
      · exact Or.inl ⟨c₀, c, rfl, hc, hkept, hfields, hextended⟩
      · exact Or.inr ⟨f, hf, .pair hkept hps hbefore hp⟩

theorem pairs_append {tokens : List (List Char)} (h : tokens.length % 2 = 0) (rest : List (List Char)) :
    pairs (tokens ++ rest) = pairs tokens ++ pairs rest := by
  induction tokens using pairs.induct with
  | case1 name value tokens ih =>
      have htokens : tokens.length % 2 = 0 := by
        simp only [List.length_cons] at h
        omega
      rw [List.cons_append, List.cons_append, pairs, pairs, ih htokens, List.cons_append]
  | case2 tokens hshort =>
      cases tokens with
      | nil => rfl
      | cons name rest =>
          cases rest with
          | nil => simp at h
          | cons value rest => exact absurd rfl (hshort name value rest)

theorem pairs_concat {tokens : List (List Char)} (h : tokens.length % 2 = 0) (w : List Char) :
    pairs (tokens ++ [w]) = pairs tokens := by
  have hnone : pairs [w] = [] := rfl
  rw [pairs_append h, hnone, List.append_nil]

theorem getElem?_pairs_eq_some_iff {tokens : List (List Char)} {i : Nat} {p : Pair} :
    (pairs tokens)[i]? = some p ↔ tokens[2 * i]? = some p.1 ∧ tokens[2 * i + 1]? = some p.2 := by
  induction tokens using pairs.induct generalizing i with
  | case1 name value rest ih =>
      cases i with
      | zero => simp [pairs, Prod.ext_iff]
      | succ i => simp [pairs, ih, Nat.mul_add]
  | case2 tokens hshort =>
      cases tokens with
      | nil => simp [pairs]
      | cons name rest =>
          cases rest with
          | nil => simp [pairs]
          | cons value rest => exact absurd rfl (hshort name value rest)

section Read

variable {value : List Char} {c : Candidate}

theorem read_eq_ok (h : read value = .ok c) :
    mandatoryTokens ≤ (words value).length ∧
    ∃ c₀, readMandatory value ((words value).take mandatoryTokens) = .ok c₀ ∧
      Kept mandatoryRules ((words value).take mandatoryTokens) ∧
      FreshFieldsOf ((words value).take mandatoryTokens) c₀ ∧
      Extended c₀ (pairs ((words value).drop mandatoryTokens)) c := by
  have hlength : mandatoryTokens ≤ (words value).length := by
    by_contra hshort
    rw [read_eq, readMandatory_of_short (by rw [List.length_take]; omega)] at h
    cases h
  rcases read_outcome hlength with ⟨c₀, c', hmandatory, hc', hkept, hfields, hextended⟩ | ⟨e, he, -⟩
  · obtain rfl : c' = c := Except.ok.inj (hc'.symm.trans h)
    exact ⟨hlength, c₀, hmandatory, hkept, hfields, hextended⟩
  · cases he.symm.trans h

theorem exists_read_eq_ok_iff :
    (∃ c, read value = .ok c) ↔ mandatoryTokens ≤ (words value).length ∧
      Kept mandatoryRules ((words value).take mandatoryTokens) ∧
      ∀ p ∈ pairs ((words value).drop mandatoryTokens), PairKept p := by
  constructor
  · rintro ⟨c, hc⟩
    obtain ⟨hlength, c₀, -, hkept, -, hextended⟩ := read_eq_ok hc
    exact ⟨hlength, hkept, hextended.kept⟩
  · rintro ⟨hlength, hgrammar⟩
    rcases read_outcome hlength with ⟨-, c, -, hc, -⟩ | ⟨e, -, hoffends⟩
    · exact ⟨c, hc⟩
    · exact absurd hgrammar hoffends.not_kept

theorem fieldsOf_of_read (h : read value = .ok c) :
    FieldsOf ((words value).take mandatoryTokens) c ∧
      ∀ e, HoldsLast e (pairs ((words value).drop mandatoryTokens)) (c.extension e) := by
  obtain ⟨-, c₀, -, -, ⟨hfields, hfresh⟩, hextended⟩ := read_eq_ok h
  refine ⟨?_, hextended.holdsLast hfresh⟩
  rw [← fieldsOf_base, hextended.base, fieldsOf_base]
  exact hfields

theorem read_of_perm (h : read value = .ok c) {other : List Char}
    (hfront : (words other).take mandatoryTokens = (words value).take mandatoryTokens)
    (hperm : (pairs ((words other).drop mandatoryTokens)).Perm (pairs ((words value).drop mandatoryTokens)))
    (hnodup : ((pairs ((words value).drop mandatoryTokens)).map fun p => Text.lower p.1).Nodup) :
    read other = .ok c := by
  obtain ⟨-, c₀, hmandatory, hkept, ⟨-, hfresh⟩, hextended⟩ := read_eq_ok h
  have hlength : mandatoryTokens ≤ (words other).length := by
    have := length_of_kept hkept
    rw [← hfront, List.length_take] at this
    omega
  obtain ⟨c', hc'⟩ := exists_read_eq_ok_iff.mpr
    ⟨hlength, hfront ▸ hkept, fun p hp => hextended.kept p (hperm.subset hp)⟩
  obtain ⟨-, c₁, hmandatory', -, ⟨-, hfresh'⟩, hextended'⟩ := read_eq_ok hc'
  obtain rfl : c₀ = c₁ := by
    rw [hfront, readMandatory_congr (length_of_kept hkept) other value, hmandatory] at hmandatory'
    exact Except.ok.inj hmandatory'
  rw [hc', ext_of_base (hextended.base.trans hextended'.base.symm) fun e =>
    (hextended.holdsLast hfresh e).unique_of_perm (hextended'.holdsLast hfresh' e) hperm hnodup]

theorem read_concat {token : List Char} {other : List Char} (hlength : mandatoryTokens ≤ (words value).length)
    (heven : (words value).length % 2 = 0) (hother : words other = words value ++ [token]) :
    read other = read value := by
  have hdrop : ((words value).drop mandatoryTokens).length % 2 = 0 := by
    rw [List.length_drop, mandatoryTokens]
    omega
  rw [read_eq, read_eq, hother, List.take_append_of_le_length hlength, List.drop_append_of_le_length hlength,
    readMandatory_congr (List.length_take_of_le hlength) other value]
  refine bind_congr fun c => ?_
  rw [readExtensions_eq_foldlM, readExtensions_eq_foldlM, pairs_concat hdrop]

theorem offends_of_read {e : Fault Defect} (h : read value = .error e)
    (hlength : mandatoryTokens ≤ (words value).length) :
    Offends ((words value).take mandatoryTokens) (pairs ((words value).drop mandatoryTokens))
      e.text.toList := by
  rcases read_outcome hlength with ⟨-, c, -, hc, -⟩ | ⟨f, hf, hoffends⟩
  · cases hc.symm.trans h
  · obtain rfl : f = e := Except.error.inj (hf.symm.trans h)
    exact hoffends

end Read

theorem read_attribute_eq_ok_iff {value : List Char} {a : Attribute} :
    Attribute.read .candidate value = .ok a ↔ ∃ c, read value = .ok c ∧ .candidate c = a :=
  map_eq_ok_iff

/-- A candidate is read just if every token in front keeps its rule and every pair behind is a known name
with a value for it; otherwise the leftmost of them that is not is blamed. The last pair of each name
counts, so that pairs of distinct names may change places, and a name without a value is passed over. -/
theorem read_grammar (value : List Char) :
    (∀ i p, (behind value)[i]? = some p ↔
      (words value)[8 + 2 * i]? = some p.1 ∧ (words value)[9 + 2 * i]? = some p.2) ∧
    ((∃ a, Attribute.read .candidate value = .ok a) ↔
      8 ≤ (words value).length ∧ Kept mandatoryRules (front value) ∧ ∀ p ∈ behind value, PairKept p) ∧
    (∀ a, Attribute.read .candidate value = .ok a →
      ∃ c, a = .candidate c ∧ FieldsOf (front value) c ∧
        ∀ e, HoldsLast e (behind value) (c.extension e)) ∧
    (∀ other a, Attribute.read .candidate value = .ok a → front other = front value →
      (behind other).Perm (behind value) → ((behind value).map fun p => Text.lower p.1).Nodup →
      Attribute.read .candidate other = .ok a) ∧
    (∀ other token, 8 ≤ (words value).length → (words value).length % 2 = 0 →
      words other = words value ++ [token] →
      Attribute.read .candidate other = Attribute.read .candidate value) ∧
    ∀ e, Attribute.read .candidate value = .error e → 8 ≤ (words value).length →
      Offends (front value) (behind value) e.text.toList := by
  refine ⟨fun i p => ?_, ?_, ?_, ?_, ?_, ?_⟩
  · rw [behind, getElem?_pairs_eq_some_iff, List.getElem?_drop, List.getElem?_drop, ← Nat.add_assoc,
      Nat.add_right_comm]
  · refine Iff.trans ?_ exists_read_eq_ok_iff
    simp only [read_attribute_eq_ok_iff]
    exact ⟨fun ⟨_, c, hc, _⟩ => ⟨c, hc⟩, fun ⟨c, hc⟩ => ⟨_, c, hc, rfl⟩⟩
  · intro a ha
    obtain ⟨c, hc, rfl⟩ := read_attribute_eq_ok_iff.mp ha
    exact ⟨c, rfl, fieldsOf_of_read hc⟩
  · intro other a ha hfront hperm hnodup
    obtain ⟨c, hc, rfl⟩ := read_attribute_eq_ok_iff.mp ha
    exact read_attribute_eq_ok_iff.mpr ⟨c, read_of_perm hc hfront hperm hnodup, rfl⟩
  · intro other token hlength heven hother
    exact congrArg (Except.map Attribute.candidate) (read_concat hlength heven hother)
  · intro e he hlength
    exact offends_of_read (Attribute.read_candidate_eq_error_iff.mp he) hlength

/-- Two pairs in either order, a name without a value behind them, and a port that is none. -/
theorem read_grammar_of_two_pairs :
    let value := "f +01 UDP 7 ::1 9 typ Host raddr 10.0.0.1 RPort 2".toList
    let swapped := "f +01 UDP 7 ::1 9 typ Host RPort 2 raddr 10.0.0.1 generation".toList
    let dangling := "f +01 UDP 7 ::1 9 typ Host raddr 10.0.0.1 RPort 2 generation".toList
    let refused := "f +01 UDP 7 ::1 9 typ Host raddr 10.0.0.1 RPort 65536".toList
    let c : Candidate :=
      { foundation := "f", component := 1, transport := .udp, priority := 7
        address := .v6 [0, 0, 0, 0, 0, 0, 0, 1] rfl, port := 9, type := .host
        remoteAddress := some (.v4 10 0 0 1), remotePort := some 2 }
    Attribute.read .candidate value = .ok (.candidate c) ∧
      FieldsOf (front value) c ∧
      HoldsLast .remotePort (behind value) (c.extension .remotePort) ∧
      Attribute.read .candidate swapped = .ok (.candidate c) ∧
      Attribute.read .candidate dangling = .ok (.candidate c) ∧
      Offends (front refused) (behind refused) "65536".toList := by
  intro value swapped dangling refused c
  have hread : Attribute.read .candidate value = .ok (.candidate c) := by decide +kernel
  obtain ⟨-, -, hfields, hperm, hconcat, -⟩ := read_grammar value
  obtain ⟨_, hc, hfront, hlast⟩ := hfields _ hread
  cases hc
  refine ⟨hread, hfront, hlast .remotePort, ?_, ?_, ?_⟩
  · exact hperm swapped _ hread (by decide +kernel) (by decide +kernel) (by decide +kernel)
  · exact (hconcat dangling "generation".toList (by decide +kernel) (by decide +kernel)
      (by decide +kernel)).trans hread
  · obtain ⟨-, -, -, -, -, hoffends⟩ := read_grammar refused
    exact hoffends (fault (.number .candidateRemotePort .notPort) "65536".toList) (by decide +kernel)
      (by decide +kernel)

end Candidate

end Sdp
