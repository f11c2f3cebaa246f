import Mathlib.Tactic.IntervalCases
import Sdp.Data.Json.Parser
import Sdp.Proofs.Data.Printer
import Sdp.Proofs.Numeral.Grammar

/-!
# JSON is read back

Main statement: `Json.read?_layOut`, from its text every plain value is read back as it was.
-/

namespace Sdp.Json

open Numeral (decimal digits digitChar cutDigits decimalDigit? signedDecimal)

/-- What may stand behind a value in a list or a record, or behind all. -/
def Ends (rest : List Char) : Prop :=
  rest = [] ∨ ∃ c ∈ [',', ']', '}'], ∃ tail, rest = c :: tail

variable {s rest : List Char}

/-! ## Numbers -/

theorem Ends.cons {c : Char} (hc : c ∈ [',', ']', '}']) (tail : List Char) : Ends (c :: tail) :=
  Or.inr ⟨c, hc, tail, rfl⟩

theorem Ends.stops (h : Ends rest) : Stops (fun c => (decimalDigit? c).isSome) rest := by
  rcases h with rfl | ⟨c, hc, tail, rfl⟩
  · exact fun _ h => nomatch h
  · simp only [List.mem_cons, List.not_mem_nil, or_false] at hc
    rcases hc with rfl | rfl | rfl <;> exact stops_cons (by decide) tail

/-- All digits are taken, and no others follow. -/
theorem cutDigits_decimal (n : Nat) (h : Ends rest) :
    cutDigits (decimal n ++ rest) = (digits 10 n, rest) :=
  Numeral.cutDigits_append (fun _ => Numeral.lt_of_mem_digits (by decide)) h.stops

theorem exists_decimal_eq_cons (n : Nat) : ∃ d ds, d < 10 ∧ decimal n = digitChar d :: ds := by
  obtain ⟨d, ds, hds⟩ := List.exists_cons_of_ne_nil (Numeral.digits_ne_nil 10 n)
  have hd : d < 10 := Numeral.lt_of_mem_digits (by decide) (hds ▸ List.mem_cons_self)
  exact ⟨d, ds.map digitChar, hd, by rw [decimal, hds, List.map_cons]⟩

theorem readScalar?_digit {d : Nat} (hd : d < 10) (s : List Char) :
    readScalar? (digitChar d :: s) = readMagnitude? false (digitChar d :: s) := by
  interval_cases d <;> rfl

theorem readScalar?_minus {d : Nat} (hd : d < 10) (s : List Char) :
    readScalar? ('-' :: digitChar d :: s) = readMagnitude? true (digitChar d :: s) := by
  interval_cases d <;> rfl

theorem readMagnitude?_decimal (negative : Bool) (n : Nat) (h : Ends rest) :
    readMagnitude? negative (decimal n ++ rest) = some (.int (if negative then -(n : Int) else n), rest) := by
  have hne : (digits 10 n).isEmpty = false := List.isEmpty_eq_false_iff.mpr (Numeral.digits_ne_nil 10 n)
  have hzero : ¬ ((digits 10 n).head? = some 0 ∧ (digits 10 n).length > 1) := by
    rintro ⟨hhead, hlength⟩
    by_cases hn : n = 0
    · subst hn
      rw [Numeral.digits_of_lt (by decide)] at hlength
      exact absurd hlength (by decide)
    · exact Numeral.head?_digits_ne_zero (by decide) hn hhead
  have hvalue : Numeral.ofDigits 10 (digits 10 n) = n := Numeral.ofDigits_digits (by decide) n
  simp only [readMagnitude?, cutDigits_decimal n h, hne, hzero, hvalue]
  rcases h with rfl | ⟨c, hc, tail, rfl⟩
  · rfl
  · simp only [List.mem_cons, List.not_mem_nil, or_false] at hc
    rcases hc with rfl | rfl | rfl <;> rfl

theorem readScalar?_signedDecimal (n : Int) (h : Ends rest) :
    readScalar? (signedDecimal n ++ rest) = some (.int n, rest) := by
  cases n with
  | ofNat n =>
      obtain ⟨d, ds, hd, hn⟩ := exists_decimal_eq_cons n
      have hread := readMagnitude?_decimal false n h
      rw [hn, List.cons_append] at hread
      rw [signedDecimal, hn, List.cons_append, readScalar?_digit hd, hread]
      rfl
  | negSucc n =>
      obtain ⟨d, ds, hd, hn⟩ := exists_decimal_eq_cons (n + 1)
      have hread := readMagnitude?_decimal true (n + 1) h
      rw [hn, List.cons_append] at hread
      rw [signedDecimal, hn, List.cons_append, List.cons_append, readScalar?_minus hd, hread]
      rfl

/-! ## Texts -/

theorem exists_unit?_eq {n : Nat} (h : n < 0x10000) :
    ∃ a b c d, Numeral.hexFixed 4 n = [a, b, c, d] ∧ unit? a b c d = some n := by
  have hdigits : (Numeral.hexFixed 4 n).mapM Numeral.hexDigit? = some (Numeral.fixedDigits 16 4 n) :=
    Numeral.mapM_digit? fun d hd => Numeral.hexDigit?_digitChar d (Numeral.lt_of_mem_fixedDigits (by decide) hd)
  obtain ⟨a, b, c, d, hhex⟩ : ∃ a b c d, Numeral.hexFixed 4 n = [a, b, c, d] := ⟨_, _, _, _, rfl⟩
  rw [hhex] at hdigits
  refine ⟨a, b, c, d, hhex, ?_⟩
  rw [unit?, hdigits, Option.map_some, Numeral.ofDigits_fixedDigits h]

theorem readText?_escape (c : Char) (rest : List Char) :
    readText? (escape c ++ rest) = (readText? rest).map fun (t, rest) => (c :: t, rest) := by
  unfold escape
  split
  case h_8 hquote hbackslash _ _ _ _ _ =>
    split
    · next hlow =>
        obtain ⟨d₁, d₂, d₃, d₄, hhex, hunit⟩ := exists_unit?_eq (Nat.lt_trans hlow (by decide))
        have hpair : ¬ (0xD800 ≤ c.toNat ∧ c.toNat < 0xDC00) := by omega
        have hvalid : c.toNat.isValidChar := c.valid
        simp [hhex, readText?, hunit, hpair, hvalid, Char.ofNat_toNat]
    · next hhigh =>
        rw [List.singleton_append, readText?, if_neg hhigh]
        · exact hquote
        · exact fun _ _ _ _ _ hc _ => hbackslash hc
        · exact fun _ _ hc _ => hbackslash hc
  all_goals simp [readText?, unescape?]

theorem readText?_flatMap (t rest : List Char) :
    readText? (t.flatMap escape ++ '"' :: rest) = some (t, rest) := by
  induction t with
  | nil => simp [readText?]
  | cons c t ih => rw [List.flatMap_cons, List.append_assoc, readText?_escape, ih, Option.map_some]

/-! ## One step -/

theorem skipSpace_cons {c : Char} (h : isSpace c = false) (s : List Char) : skipSpace (c :: s) = c :: s :=
  List.dropWhile_cons_of_neg (by simp [h])

theorem skipSpace_space (s : List Char) : skipSpace (' ' :: s) = skipSpace s :=
  List.dropWhile_cons_of_pos rfl

section Step

variable {body tail : List Char} {v : Value}

theorem readValue?_of_text (h : skipSpace s = '"' :: body) :
    readValue? s = (readText? body).map fun (t, rest) => (.text (.ofList t), rest) := by
  rw [readValue?]
  split
  · next h' =>
      cases h.symm.trans h'
      rfl
  · next h' => cases h.symm.trans h'
  · next h' => cases h.symm.trans h'
  · next hnot _ _ => exact absurd h (hnot _)

theorem readValue?_of_list (h : skipSpace s = '[' :: body) :
    readValue? s = match skipSpace body with
      | ']' :: rest => some (.list [], rest)
      | _ => (readItems? body).map fun (items, rest) => (.list items, rest) := by
  rw [readValue?]
  split
  · next h' => cases h.symm.trans h'
  · next h' =>
      cases h.symm.trans h'
      rfl
  · next h' => cases h.symm.trans h'
  · next hnot _ => exact absurd h (hnot _)

theorem readValue?_of_record (h : skipSpace s = '{' :: body) :
    readValue? s = match skipSpace body with
      | '}' :: rest => some (.record [], rest)
      | _ => (readFields? body).map fun (fields, rest) => (.record fields, rest) := by
  rw [readValue?]
  split
  · next h' => cases h.symm.trans h'
  · next h' => cases h.symm.trans h'
  · next h' =>
      cases h.symm.trans h'
      rfl
  · next hnot => exact absurd h (hnot _)

theorem readValue?_of_scalar {c : Char} (h : skipSpace s = c :: tail) (hc : c ≠ '"' ∧ c ≠ '[' ∧ c ≠ '{') :
    readValue? s = readScalar? (c :: tail) := by
  rw [readValue?]
  split
  · next h' =>
      cases h.symm.trans h'
      exact absurd rfl hc.1
  · next h' =>
      cases h.symm.trans h'
      exact absurd rfl hc.2.1
  · next h' =>
      cases h.symm.trans h'
      exact absurd rfl hc.2.2
  · rw [h]

theorem readItems?_of_value (hv : readValue? s = some (v, rest)) :
    readItems? s = match skipSpace rest with
      | ']' :: rest => some ([v], rest)
      | ',' :: tail =>
        if rest.length ≤ s.length then (readItems? tail).map fun (vs, rest) => (v :: vs, rest) else none
      | _ => none := by
  rw [readItems?, hv]
  dsimp only
  split
  · next h =>
      rw [h]
      rfl
  · next h =>
      rw [h]
      rfl
  · next hclose hcomma =>
      split
      · next h => exact absurd h (hclose _)
      · next h => exact absurd h (hcomma _)
      · rfl

/-- A name, a colon and a value stand at the front of a text. -/
def FieldAt (s name : List Char) (v : Value) (rest : List Char) : Prop :=
  ∃ text body afterName, skipSpace s = '"' :: text ∧ readText? text = some (name, afterName) ∧
    skipSpace afterName = ':' :: body ∧ afterName.length ≤ s.length ∧ readValue? body = some (v, rest)

theorem readFields?_of_fieldAt {name : List Char} (hf : FieldAt s name v rest) :
    readFields? s = match skipSpace rest with
      | '}' :: rest => some ([(.ofList name, v)], rest)
      | ',' :: tail =>
        if rest.length ≤ s.length then
          (readFields? tail).map fun (fs, rest) => ((.ofList name, v) :: fs, rest)
        else none
      | _ => none := by
  obtain ⟨text, body, afterName, hs, hname, hcolon, hle, hv⟩ := hf
  rw [readFields?]
  split
  · next h =>
      cases hs.symm.trans h
      rw [hname]
      dsimp only
      split
      · next h =>
          cases hcolon.symm.trans h
          rw [dif_pos hle, hv]
          dsimp only
          split
          · next h =>
              rw [h]
              rfl
          · next h =>
              rw [h]
              rfl
          · next hclose hcomma =>
              split
              · next h => exact absurd h (hclose _)
              · next h => exact absurd h (hcomma _)
              · rfl
      · next hnot => exact absurd hcolon (hnot _)
  · next hnot => exact absurd hs (hnot _)

end Step

/-! ## Whole values -/

theorem exists_signedDecimal_eq_cons {p : Char → Prop} (hminus : p '-') (hdigit : ∀ d < 10, p (digitChar d))
    (n : Int) : ∃ c tail, signedDecimal n = c :: tail ∧ p c := by
  cases n with
  | ofNat n =>
      obtain ⟨d, ds, hd, hn⟩ := exists_decimal_eq_cons n
      exact ⟨_, ds, hn, hdigit d hd⟩
  | negSucc n => exact ⟨'-', _, rfl, hminus⟩

theorem layOutText_append (t rest : List Char) :
    layOutText t ++ rest = '"' :: (t.flatMap escape ++ '"' :: rest) := by
  simp [layOutText]

/-- A value starts with a character that neither is a blank nor closes a list. -/
theorem exists_layOut_eq_cons {v : Value} (h : v.Plain) :
    ∃ c tail, layOut v = c :: tail ∧ isSpace c = false ∧ c ≠ ']' := by
  cases h with
  | null => exact ⟨'n', _, by rw [layOut]; rfl, by decide⟩
  | bool b =>
      cases b with
      | false => exact ⟨'f', _, by rw [layOut]; rfl, by decide⟩
      | true => exact ⟨'t', _, by rw [layOut]; rfl, by decide⟩
  | int n =>
      rw [layOut]
      exact exists_signedDecimal_eq_cons (by decide) (by decide) n
  | text t => exact ⟨'"', _, by rw [layOut]; rfl, by decide⟩
  | list h => exact ⟨'[', _, by rw [layOut]; rfl, by decide⟩
  | record h => exact ⟨'{', _, by rw [layOut]; rfl, by decide⟩

theorem layOutAll_cons_cons (x y : List Char) (ys : List (List Char)) :
    layOutAll (x :: y :: ys) = x ++ ',' :: ' ' :: layOutAll (y :: ys) := by
  rw [layOutAll, List.intercalate_cons_cons, List.append_assoc]
  rfl

/-- A list of texts starts like the first of them. -/
theorem exists_layOutAll_eq_cons {x : List Char} {c : Char} {tail : List Char} (hx : x = c :: tail)
    (xs : List (List Char)) (rest : List Char) : ∃ tail, layOutAll (x :: xs) ++ rest = c :: tail := by
  subst hx
  cases xs with
  | nil => exact ⟨tail ++ rest, by rw [layOutAll, List.intercalate_singleton]; rfl⟩
  | cons y ys => exact ⟨_, by rw [layOutAll_cons_cons]; rfl⟩

theorem layOutItems_cons (v : Value) (vs : List Value) : layOutItems (v :: vs) = layOut v :: layOutItems vs := by
  rw [layOutItems]

theorem layOutFields_cons (name : String) (v : Value) (fs : List (String × Value)) :
    layOutFields ((name, v) :: fs) = (layOutText name.toList ++ ':' :: ' ' :: layOut v) :: layOutFields fs := by
  rw [layOutFields]

/-- Behind the bracket of a list that is not empty neither a blank nor the other bracket stands. -/
theorem exists_layOutItems_eq_cons {v : Value} (h : v.Plain) (vs : List Value) (rest : List Char) :
    ∃ c tail, layOutAll (layOutItems (v :: vs)) ++ rest = c :: tail ∧ isSpace c = false ∧ c ≠ ']' := by
  obtain ⟨c, tail, hv, hspace, hclose⟩ := exists_layOut_eq_cons h
  obtain ⟨tail', hall⟩ := exists_layOutAll_eq_cons hv (layOutItems vs) rest
  exact ⟨c, tail', by rw [layOutItems_cons, hall], hspace, hclose⟩

theorem exists_layOutFields_eq_cons (f : String × Value) (fs : List (String × Value)) (rest : List Char) :
    ∃ tail, layOutAll (layOutFields (f :: fs)) ++ rest = '"' :: tail := by
  obtain ⟨name, v⟩ := f
  rw [layOutFields_cons]
  exact exists_layOutAll_eq_cons (layOutText_append name.toList _) (layOutFields fs) rest

theorem length_le_of_skipSpace {front : List Char} (h : skipSpace s = front ++ rest) :
    rest.length ≤ s.length := by
  have hle := length_skipSpace_le s
  rw [h, List.length_append] at hle
  omega

theorem layOut_list_append (items : List Value) (rest : List Char) :
    layOut (.list items) ++ rest = '[' :: (layOutAll (layOutItems items) ++ ']' :: rest) := by
  simp [layOut]

theorem layOut_record_append (fields : List (String × Value)) (rest : List Char) :
    layOut (.record fields) ++ rest = '{' :: (layOutAll (layOutFields fields) ++ '}' :: rest) := by
  simp [layOut]

theorem skipSpace_layOut {v : Value} (h : v.Plain) (rest : List Char) :
    skipSpace (layOut v ++ rest) = layOut v ++ rest := by
  obtain ⟨c, tail, hv, hspace, -⟩ := exists_layOut_eq_cons h
  rw [hv, List.cons_append, skipSpace_cons hspace]

theorem fieldAt_of_layOut {name : String} {v : Value} (hplain : v.Plain)
    (hv : ∀ s, skipSpace s = layOut v ++ rest → readValue? s = some (v, rest))
    (h : skipSpace s = (layOutText name.toList ++ ':' :: ' ' :: layOut v) ++ rest) : FieldAt s name.toList v rest := by
  have hvalue : readValue? (' ' :: (layOut v ++ rest)) = some (v, rest) :=
    hv _ ((skipSpace_space _).trans (skipSpace_layOut hplain rest))
  rw [List.append_assoc] at h
  have hle := length_le_of_skipSpace h
  rw [layOutText_append] at h
  exact ⟨_, _, _, h, readText?_flatMap name.toList _, skipSpace_cons rfl _, hle, hvalue⟩

-- A text may start with blanks: one stands behind every comma and colon.
mutual
/-- Behind blanks a value is read off the front of a text, up to the end of its own text. -/
theorem readValue?_layOut : (v : Value) → v.Plain → ∀ s rest, skipSpace s = layOut v ++ rest → Ends rest →
    readValue? s = some (v, rest)
  | .null, _, s, rest, h, _ => by
      rw [layOut] at h
      exact (readValue?_of_scalar h (by decide)).trans rfl
  | .bool b, _, s, rest, h, _ => by
      rw [layOut] at h
      cases b with
      | false => exact (readValue?_of_scalar h (by decide)).trans rfl
      | true => exact (readValue?_of_scalar h (by decide)).trans rfl
  | .int n, _, s, rest, h, hrest => by
      obtain ⟨c, tail, hn, hc⟩ :=
        exists_signedDecimal_eq_cons (p := fun c => c ≠ '"' ∧ c ≠ '[' ∧ c ≠ '{') (by decide) (by decide) n
      have hread := readScalar?_signedDecimal n hrest
      rw [layOut, hn, List.cons_append] at h
      rw [hn, List.cons_append] at hread
      exact (readValue?_of_scalar h hc).trans hread
  | .real x, hv, _, _, _, _ => nomatch hv
  | .text t, _, s, rest, h, _ => by
      rw [layOut, layOutText_append] at h
      rw [readValue?_of_text h, readText?_flatMap]
      simp only [Option.map_some, String.ofList_toList]
  | .date t, hv, _, _, _, _ => nomatch hv
  | .list [], _, s, rest, h, _ => by
      rw [layOut_list_append] at h
      exact readValue?_of_list h
  | .list (v :: vs), .list hv, s, rest, h, _ => by
      rw [layOut_list_append] at h
      obtain ⟨c, tail, hbody, hspace, hclose⟩ :=
        exists_layOutItems_eq_cons (hv v List.mem_cons_self) vs (']' :: rest)
      have hskip : skipSpace (layOutAll (layOutItems (v :: vs)) ++ ']' :: rest) = c :: tail := by
        rw [hbody, skipSpace_cons hspace]
      have hitems := readItems?_layOut (v :: vs) (List.cons_ne_nil _ _) hv _ rest (hskip.trans hbody.symm)
      rw [readValue?_of_list h, hitems, hskip]
      split
      · next hc => exact absurd (List.cons.inj hc).1 hclose
      · rfl
  | .record [], _, s, rest, h, _ => by
      rw [layOut_record_append] at h
      exact readValue?_of_record h
  | .record (f :: fs), .record hv, s, rest, h, _ => by
      rw [layOut_record_append] at h
      obtain ⟨tail, hbody⟩ := exists_layOutFields_eq_cons f fs ('}' :: rest)
      have hskip : skipSpace (layOutAll (layOutFields (f :: fs)) ++ '}' :: rest) = '"' :: tail := by
        rw [hbody, skipSpace_cons rfl]
      have hfields := readFields?_layOut (f :: fs) (List.cons_ne_nil _ _) hv _ rest (hskip.trans hbody.symm)
      rw [readValue?_of_record h, hfields, hskip]
      rfl

theorem readItems?_layOut : (items : List Value) → items ≠ [] → (∀ v ∈ items, v.Plain) → ∀ s rest,
    skipSpace s = layOutAll (layOutItems items) ++ ']' :: rest → readItems? s = some (items, rest)
  | [], hne, _, _, _, _ => absurd rfl hne
  | [v], _, hv, s, rest, h => by
      rw [layOutItems, layOutItems, layOutAll, List.intercalate_singleton] at h
      rw [readItems?_of_value (readValue?_layOut v (hv v List.mem_cons_self) s _ h (.cons (by decide) rest)),
        skipSpace_cons rfl]
      rfl
  | v :: w :: vs, _, hv, s, rest, h => by
      obtain ⟨hplain, hrest⟩ := List.forall_mem_cons.mp hv
      obtain ⟨c, tail, hnext, hspace, -⟩ :=
        exists_layOutItems_eq_cons (hrest w List.mem_cons_self) vs (']' :: rest)
      have hitems := readItems?_layOut (w :: vs) (List.cons_ne_nil _ _) hrest
        (' ' :: (layOutAll (layOutItems (w :: vs)) ++ ']' :: rest)) rest
        (by rw [skipSpace_space, hnext, skipSpace_cons hspace])
      rw [layOutItems_cons, layOutItems_cons, layOutAll_cons_cons, ← layOutItems_cons, List.append_assoc] at h
      have hle := length_le_of_skipSpace h
      rw [readItems?_of_value (readValue?_layOut v hplain s _ h (.cons (by decide) _)), List.cons_append,
        skipSpace_cons rfl]
      exact (if_pos hle).trans (congrArg _ hitems)

theorem readFields?_layOut : (fields : List (String × Value)) → fields ≠ [] → (∀ f ∈ fields, f.2.Plain) →
    ∀ s rest, skipSpace s = layOutAll (layOutFields fields) ++ '}' :: rest → readFields? s = some (fields, rest)
  | [], hne, _, _, _, _ => absurd rfl hne
  | [(name, v)], _, hv, s, rest, h => by
      have hplain : v.Plain := hv _ List.mem_cons_self
      rw [layOutFields, layOutFields, layOutAll, List.intercalate_singleton] at h
      have hfield : FieldAt s name.toList v ('}' :: rest) :=
        fieldAt_of_layOut hplain (fun s hs => readValue?_layOut v hplain s _ hs (.cons (by decide) rest)) h
      rw [readFields?_of_fieldAt hfield, skipSpace_cons rfl]
      simp only [String.ofList_toList]
  | (name, v) :: (next, w) :: fs, _, hv, s, rest, h => by
      obtain ⟨hplain, hrest⟩ := List.forall_mem_cons.mp hv
      obtain ⟨tail, hnext⟩ := exists_layOutFields_eq_cons (next, w) fs ('}' :: rest)
      have hfields := readFields?_layOut ((next, w) :: fs) (List.cons_ne_nil _ _) hrest
        (' ' :: (layOutAll (layOutFields ((next, w) :: fs)) ++ '}' :: rest)) rest
        (by rw [skipSpace_space, hnext, skipSpace_cons rfl])
      rw [layOutFields_cons, layOutFields_cons, layOutAll_cons_cons, ← layOutFields_cons, List.append_assoc,
        List.cons_append] at h
      have hle := length_le_of_skipSpace h
      have hfield : FieldAt s name.toList v (',' :: _) :=
        fieldAt_of_layOut hplain (fun s hs => readValue?_layOut v hplain s _ hs (.cons (by decide) _)) h
      rw [readFields?_of_fieldAt hfield, skipSpace_cons rfl]
      refine (if_pos hle).trans ?_
      rw [List.cons_append, hfields, Option.map_some, String.ofList_toList]
end

/-- From its text every plain value is read back as it was. -/
theorem read?_layOut {v : Value} (h : v.Plain) : read? (layOut v) = some v := by
  have hskip := skipSpace_layOut h []
  rw [List.append_nil] at hskip
  have hread : readValue? (layOut v) = some (v, []) :=
    readValue?_layOut v h _ [] (by rw [hskip, List.append_nil]) (.inl rfl)
  rw [read?, hread]
  rfl

end Sdp.Json
