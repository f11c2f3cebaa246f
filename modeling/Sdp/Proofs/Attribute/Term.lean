import Sdp.Attribute.Display
import Sdp.Proofs.Text.Pieces
import Sdp.Proofs.Text.Quoted

/-!
# Terms are spelled unambiguously

Main statements: `Term.render_append_inj`, a term is read off its text and ends where the text says, and
`Term.forall_mem_render`.
-/

namespace Sdp

open Text (quote)

/-! ## Names -/

/-- A character of a name. -/
def isNameChar (c : Char) : Bool := c.isAlphanum || c == '_'

/-- The text starts with a letter or an underscore, on which more of these or digits may follow. -/
def IsName (s : String) : Prop :=
  (∃ c ∈ s.toList.head?, c.isDigit = false) ∧ ∀ c ∈ s.toList, isNameChar c

instance (s : String) : Decidable (IsName s) :=
  decidable_of_iff (s.toList.head?.any (!·.isDigit) ∧ s.toList.all isNameChar)
    (by simp [IsName, Option.any_eq_true])

theorem ne_of_run {p : Char → Bool} {c mark : Char} (hc : p c) (hmark : p mark = false) : c ≠ mark := by
  rintro rfl
  rw [hc] at hmark
  cases hmark

/-- A run of characters ends at the first that is none of it. -/
theorem append_inj_of_run {p : Char → Bool} {s t x y : List Char} (hs : ∀ c ∈ s, p c) (ht : ∀ c ∈ t, p c)
    (hx : Stops p x) (hy : Stops p y) (h : s ++ x = t ++ y) : s = t ∧ x = y := by
  have hst : s = t := by rw [← takeWhile_append_of_stops hs hx, h, takeWhile_append_of_stops ht hy]
  subst hst
  exact ⟨rfl, List.append_cancel_left h⟩

namespace Term

/-! ## Named terms -/

mutual
/-- The names in a term are names. -/
def WellNamed : Term → Prop
  | none | truth _ | number _ | text _ => True
  | member type name _ => IsName type ∧ IsName name
  | literal type _ => IsName type
  | list items => WellNamedItems items
  | record type fields => IsName type ∧ WellNamedFields fields

def WellNamedItems : List Term → Prop
  | [] => True
  | t :: rest => t.WellNamed ∧ WellNamedItems rest

def WellNamedFields : List (String × Term) → Prop
  | [] => True
  | (name, t) :: rest => IsName name ∧ t.WellNamed ∧ WellNamedFields rest
end

/-! ## Forms -/

/-- The forms of terms. -/
inductive Form where
  | none
  | truth
  | number
  | text
  | member
  | literal
  | list
  | record
deriving DecidableEq

def form : Term → Form
  | none => .none
  | truth _ => .truth
  | number _ => .number
  | text _ => .text
  | member .. => .member
  | literal .. => .literal
  | list _ => .list
  | record .. => .record

/-- The form of a term that starts with a name: what stands behind the name decides. -/
def formOfName (name : List Char) : List Char → Form
  | '(' :: c :: _ => if c = '\'' ∨ c = '"' then .literal else .record
  | _ => if name = "None".toList then .none else .truth

/-- The form of the term at the front of a text. -/
def form? : List Char → Option Form
  | [] => Option.none
  | c :: rest =>
    if c = '<' then some .member
    else if c = '(' then some .list
    else if c = '\'' ∨ c = '"' then some .text
    else if c.isDigit then some .number
    else if isNameChar c then
      some (formOfName ((c :: rest).takeWhile isNameChar) ((c :: rest).dropWhile isNameChar))
    else Option.none

/-- What may stand behind a term: nothing, or a comma or a closing parenthesis. -/
def Closes (s : List Char) : Prop := ∀ c ∈ s.head?, c = ',' ∨ c = ')'

theorem Closes.stops {x : List Char} (h : Closes x) : Stops isNameChar x := by
  intro c hc
  rcases h c hc with rfl | rfl <;> rfl

theorem form?_name_append {name : String} (hname : IsName name) {x : List Char} (hx : Stops isNameChar x) :
    form? (name.toList ++ x) = some (formOfName name.toList x) := by
  obtain ⟨⟨c, hfirst, hdigit⟩, hchars⟩ := hname
  have htake : (name.toList ++ x).takeWhile isNameChar = name.toList := takeWhile_append_of_stops hchars hx
  have hdrop : (name.toList ++ x).dropWhile isNameChar = x := by
    have h := List.takeWhile_append_dropWhile (p := isNameChar) (l := name.toList ++ x)
    rw [htake] at h
    exact List.append_cancel_left h
  have hc : isNameChar c := hchars c (List.mem_of_head? hfirst)
  obtain ⟨rest, hrest⟩ := List.head?_eq_some_iff.mp hfirst
  rw [hrest, List.cons_append] at htake hdrop ⊢
  have hlt : c ≠ '<' := ne_of_run hc rfl
  have hopen : c ≠ '(' := ne_of_run hc rfl
  have hsingle : c ≠ '\'' := ne_of_run hc rfl
  have hdouble : c ≠ '"' := ne_of_run hc rfl
  simp only [form?, hlt, hopen, hsingle, hdouble, hdigit, hc, htake, hdrop]
  simp

theorem formOfName_of_closes {x : List Char} (hx : Closes x) (name : List Char) :
    formOfName name x = if name = "None".toList then .none else .truth := by
  unfold formOfName
  split
  · next c rest => rcases hx '(' rfl with h | h <;> cases h
  · rfl

theorem exists_quote_eq_cons (s : List Char) :
    ∃ mark rest, quote s = mark :: rest ∧ (mark = '\'' ∨ mark = '"') :=
  ⟨_, _, rfl, Text.isQuoteMark_quoteMark s⟩

/-- The first field starts with its name. -/
theorem exists_separated_renderFields {field : String × Term} {fields : List (String × Term)}
    (h : WellNamedFields (field :: fields)) :
    ∃ c rest, separated (renderFields (field :: fields)) = c :: rest ∧ isNameChar c := by
  obtain ⟨name, t⟩ := field
  obtain ⟨⟨⟨c, hfirst, -⟩, hchars⟩, -⟩ := h
  obtain ⟨rest, hrest⟩ := List.head?_eq_some_iff.mp hfirst
  have hfields : separated (renderFields ((name, t) :: fields)) =
      c :: (rest ++ '=' :: t.render ++ (renderFields fields).flatMap (',' :: ' ' :: ·)) := by
    simp only [renderFields, separated, hrest, List.cons_append, List.append_assoc]
  exact ⟨c, _, hfields, hchars c (List.mem_of_head? hfirst)⟩

theorem formOfName_record {fields : List (String × Term)} (h : WellNamedFields fields) (name x : List Char) :
    formOfName name ('(' :: (separated (renderFields fields) ++ ')' :: x)) = .record := by
  cases fields with
  | nil => rfl
  | cons field fields =>
      obtain ⟨c, rest, hfields, hc⟩ := exists_separated_renderFields h
      rw [hfields, List.cons_append, formOfName, if_neg]
      rintro (rfl | rfl) <;> cases hc

/-- The text of a term tells its form. -/
theorem form?_render_append {t : Term} (ht : t.WellNamed) {x : List Char} (hx : Closes x) :
    form? (t.render ++ x) = some t.form := by
  cases t with
  | none =>
      have hname : IsName "None" := by decide
      rw [render, form?_name_append hname hx.stops, formOfName_of_closes hx]
      rfl
  | truth b =>
      have hname : IsName (if b then "True" else "False") := by cases b <;> decide
      rw [render, form?_name_append hname hx.stops, formOfName_of_closes hx]
      cases b <;> rfl
  | number n =>
      obtain ⟨d, rest, hdigits⟩ := List.exists_cons_of_ne_nil (Numeral.decimal_ne_nil n)
      have hd : d.isDigit := by
        have h := Numeral.forall_mem_decimal (p := fun c => c.isDigit) (by decide) n d
        exact h (hdigits ▸ List.mem_cons_self ..)
      have hlt : d ≠ '<' := ne_of_run hd rfl
      have hopen : d ≠ '(' := ne_of_run hd rfl
      have hsingle : d ≠ '\'' := ne_of_run hd rfl
      have hdouble : d ≠ '"' := ne_of_run hd rfl
      rw [render, hdigits]
      simp [form?, hlt, hopen, hsingle, hdouble, hd, form]
  | text s =>
      obtain ⟨mark, rest, hquote, hmark⟩ := exists_quote_eq_cons s.toList
      rw [render, hquote]
      rcases hmark with rfl | rfl <;> rfl
  | member type name word => rfl
  | literal type s =>
      obtain ⟨mark, rest, hquote, hmark⟩ := exists_quote_eq_cons s.toList
      simp only [render, hquote, List.append_assoc, List.cons_append]
      rw [form?_name_append ht (stops_cons rfl _)]
      rcases hmark with rfl | rfl <;> rfl
  | list items =>
      rw [render]
      split <;> rfl
  | record type fields =>
      simp only [render, List.append_assoc, List.cons_append, List.nil_append]
      rw [form?_name_append ht.1 (stops_cons rfl _), formOfName_record ht.2]
      rfl

/-! ## Texts -/

theorem name_append_inj {s t : String} (hs : IsName s) (ht : IsName t) {x y : List Char}
    (hx : Stops isNameChar x) (hy : Stops isNameChar y) (h : s.toList ++ x = t.toList ++ y) :
    s = t ∧ x = y := by
  obtain ⟨hst, hxy⟩ := append_inj_of_run hs.2 ht.2 hx hy h
  exact ⟨String.toList_inj.mp hst, hxy⟩

theorem text_append_inj {s t : String} {x y : List Char} (h : quote s.toList ++ x = quote t.toList ++ y) :
    s = t ∧ x = y := by
  obtain ⟨hst, hxy⟩ := Text.quote_append_inj h
  exact ⟨String.toList_inj.mp hst, hxy⟩

theorem number_append_inj {n m : Nat} {x y : List Char} (hx : Closes x) (hy : Closes y)
    (h : Numeral.decimal n ++ x = Numeral.decimal m ++ y) : n = m ∧ x = y := by
  have hdigits := Numeral.forall_mem_decimal (p := fun c => c.isDigit) (by decide)
  have hstops {x : List Char} (hx : Closes x) : Stops Char.isDigit x := by
    intro c hc
    rcases hx c hc with rfl | rfl <;> rfl
  obtain ⟨hnm, hxy⟩ := append_inj_of_run (hdigits n) (hdigits m) (hstops hx) (hstops hy) h
  have hread := Numeral.readDecimal?_decimal n
  rw [hnm, Numeral.readDecimal?_decimal] at hread
  exact ⟨(Option.some.inj hread).symm, hxy⟩

/-! ## Items -/

/-- All items, each after a comma. -/
def following (ts : List (List Char)) : List Char := ts.flatMap (',' :: ' ' :: ·)

/-- What stands behind the last item. -/
def Ends (s : List Char) : Prop := ∃ rest, s = ')' :: rest ∨ s = ',' :: ')' :: rest

/-- The text does not start as it does behind the last item. -/
def Opens (s : List Char) : Prop := s.head? ≠ some ')'

theorem following_of_separated {ts us : List (List Char)} {x y : List Char}
    (hts : ts ≠ [] → Opens (separated ts ++ x)) (hx : ts = [] → ¬ Opens x)
    (hus : us ≠ [] → Opens (separated us ++ y)) (hy : us = [] → ¬ Opens y)
    (h : separated ts ++ x = separated us ++ y) : following ts ++ x = following us ++ y := by
  cases ts with
  | nil =>
      cases us with
      | nil => exact h
      | cons u us =>
          have hopens := hus (List.cons_ne_nil _ _)
          rw [← h] at hopens
          exact absurd hopens (hx rfl)
  | cons t ts =>
      cases us with
      | nil =>
          have hopens := hts (List.cons_ne_nil _ _)
          rw [h] at hopens
          exact absurd hopens (hy rfl)
      | cons u us => simpa [following, separated] using h

theorem Ends.closes_following {x : List Char} (h : Ends x) (ts : List (List Char)) :
    Closes (following ts ++ x) := by
  intro c hc
  cases ts with
  | nil =>
      obtain ⟨rest, rfl | rfl⟩ := h
      · cases hc
        exact Or.inr rfl
      · cases hc
        exact Or.inl rfl
  | cons t ts =>
      cases hc
      exact Or.inl rfl

theorem Ends.ne_following {x y : List Char} (h : Ends x) (t : List Char) (ts : List (List Char)) :
    x ≠ following (t :: ts) ++ y := by
  rintro rfl
  obtain ⟨rest, h | h⟩ := h <;> cases h

theorem following_cons_append (t : List Char) (ts : List (List Char)) (x : List Char) :
    following (t :: ts) ++ x = ',' :: ' ' :: (t ++ (following ts ++ x)) := by
  simp [following]

theorem opens_render_append {t : Term} (ht : t.WellNamed) {x : List Char} (hx : Closes x) :
    Opens (t.render ++ x) := by
  intro h
  obtain ⟨rest, hrest⟩ := List.head?_eq_some_iff.mp h
  have hform := form?_render_append ht hx
  rw [hrest] at hform
  cases hform

theorem not_opens (x : List Char) : ¬ Opens (')' :: x) := fun h => h rfl

/-- The end of a list; a comma stands behind an only item. -/
def ending (items : List Term) : List Char :=
  match items with
  | [_] => [',', ')']
  | _ => [')']

theorem render_list (items : List Term) :
    (list items).render = '(' :: (separated (renderItems items) ++ ending items) := by
  match items with
  | [] => rfl
  | [t] => simp [render, renderItems, separated, ending]
  | t :: u :: rest => simp [render, renderItems, separated, ending]

theorem ends_ending (items : List Term) (x : List Char) : Ends (ending items ++ x) := by
  unfold ending
  split
  · exact ⟨x, Or.inr rfl⟩
  · exact ⟨x, Or.inl rfl⟩

theorem following_of_items {ts us : List Term} (hts : WellNamedItems ts) (hus : WellNamedItems us)
    {x y : List Char}
    (h : separated (renderItems ts) ++ (ending ts ++ x) = separated (renderItems us) ++ (ending us ++ y)) :
    following (renderItems ts) ++ (ending ts ++ x) = following (renderItems us) ++ (ending us ++ y) := by
  have hopens {ts : List Term} (hts : WellNamedItems ts) (x : List Char) (hne : renderItems ts ≠ []) :
      Opens (separated (renderItems ts) ++ (ending ts ++ x)) := by
    cases ts with
    | nil => exact absurd rfl hne
    | cons t ts =>
        have hcloses := (ends_ending (t :: ts) x).closes_following (renderItems ts)
        have hseparated : separated (renderItems (t :: ts)) = t.render ++ following (renderItems ts) := rfl
        rw [hseparated, List.append_assoc]
        exact opens_render_append hts.1 hcloses
  have hend {ts : List Term} (x : List Char) (hnil : renderItems ts = []) : ¬ Opens (ending ts ++ x) := by
    cases ts with
    | nil => exact not_opens x
    | cons t ts => cases hnil
  exact following_of_separated (hopens hts x) (hend x) (hopens hus y) (hend y) h

theorem following_of_fields {fs gs : List (String × Term)} (hfs : WellNamedFields fs)
    (hgs : WellNamedFields gs) {x y : List Char}
    (h : separated (renderFields fs) ++ ')' :: x = separated (renderFields gs) ++ ')' :: y) :
    following (renderFields fs) ++ ')' :: x = following (renderFields gs) ++ ')' :: y := by
  have hopens {fs : List (String × Term)} (hfs : WellNamedFields fs) (x : List Char)
      (hne : renderFields fs ≠ []) : Opens (separated (renderFields fs) ++ ')' :: x) := by
    cases fs with
    | nil => exact absurd rfl hne
    | cons f fs =>
        obtain ⟨c, rest, hfields, hc⟩ := exists_separated_renderFields hfs
        rw [hfields]
        rintro h
        obtain rfl : c = ')' := Option.some.inj h
        cases hc
  exact following_of_separated (hopens hfs x) (fun _ => not_opens x) (hopens hgs y) (fun _ => not_opens y) h

/-! ## All terms -/

mutual
theorem render_append_inj {t u : Term} {x y : List Char} (ht : t.WellNamed) (hu : u.WellNamed)
    (hx : Closes x) (hy : Closes y) (h : t.render ++ x = u.render ++ y) : t = u ∧ x = y := by
  -- The front of the text says how the term is made, so only equal forms are left below.
  have hform : t.form = u.form := by
    have hform := form?_render_append ht hx
    rw [h, form?_render_append hu hy] at hform
    exact (Option.some.inj hform).symm
  cases t with
  | none =>
      cases u with
      | none => exact ⟨rfl, List.append_cancel_left h⟩
      | _ => cases hform
  | truth b =>
      cases u with
      | truth b' => cases b <;> cases b' <;> simp_all [render]
      | _ => cases hform
  | number n =>
      cases u with
      | number m =>
          obtain ⟨rfl, hxy⟩ := number_append_inj hx hy h
          exact ⟨rfl, hxy⟩
      | _ => cases hform
  | text s =>
      cases u with
      | text s' =>
          obtain ⟨rfl, hxy⟩ := text_append_inj h
          exact ⟨rfl, hxy⟩
      | _ => cases hform
  | member type name word =>
      cases u with
      | member type' name' word' =>
          simp only [render, List.cons_append, List.nil_append, List.append_assoc, List.cons.injEq, true_and] at h
          obtain ⟨rfl, hname⟩ := name_append_inj ht.1 hu.1 (stops_cons rfl _) (stops_cons rfl _) h
          rw [List.cons.injEq] at hname
          obtain ⟨rfl, hword⟩ := name_append_inj ht.2 hu.2 (stops_cons rfl _) (stops_cons rfl _) hname.2
          simp only [List.cons.injEq, true_and] at hword
          obtain ⟨rfl, hrest⟩ := text_append_inj hword
          exact ⟨rfl, (List.cons.inj hrest).2⟩
      | _ => cases hform
  | literal type s =>
      cases u with
      | literal type' s' =>
          simp only [render, List.cons_append, List.nil_append, List.append_assoc] at h
          obtain ⟨rfl, htext⟩ := name_append_inj ht hu (stops_cons rfl _) (stops_cons rfl _) h
          obtain ⟨rfl, hrest⟩ := text_append_inj (List.cons.inj htext).2
          exact ⟨rfl, (List.cons.inj hrest).2⟩
      | _ => cases hform
  | list ts =>
      cases u with
      | list us =>
          -- A comma tells a list of one item from no other: what stands behind the comma does.
          simp only [render_list, List.cons_append, List.append_assoc, List.cons.injEq, true_and] at h
          obtain ⟨rfl, hrest⟩ := items_append_inj ht hu (ends_ending ts x) (ends_ending us y)
            (following_of_items ht hu h)
          exact ⟨rfl, List.append_cancel_left hrest⟩
      | _ => cases hform
  | record type fields =>
      cases u with
      | record type' fields' =>
          simp only [render, List.cons_append, List.nil_append, List.append_assoc] at h
          obtain ⟨rfl, hfields⟩ := name_append_inj ht.1 hu.1 (stops_cons rfl _) (stops_cons rfl _) h
          obtain ⟨rfl, hrest⟩ := fields_append_inj ht.2 hu.2 ⟨x, Or.inl rfl⟩ ⟨y, Or.inl rfl⟩
            (following_of_fields ht.2 hu.2 (List.cons.inj hfields).2)
          exact ⟨rfl, (List.cons.inj hrest).2⟩
      | _ => cases hform

theorem items_append_inj {ts us : List Term} {x y : List Char} (hts : WellNamedItems ts)
    (hus : WellNamedItems us) (hx : Ends x) (hy : Ends y)
    (h : following (renderItems ts) ++ x = following (renderItems us) ++ y) : ts = us ∧ x = y := by
  cases ts with
  | nil =>
      cases us with
      | nil => exact ⟨rfl, h⟩
      | cons u us => exact absurd h (hx.ne_following _ _)
  | cons t ts =>
      cases us with
      | nil => exact absurd h.symm (hy.ne_following _ _)
      | cons u us =>
          simp only [renderItems, following_cons_append, List.cons.injEq, true_and] at h
          obtain ⟨rfl, hrest⟩ :=
            render_append_inj hts.1 hus.1 (hx.closes_following _) (hy.closes_following _) h
          obtain ⟨rfl, hxy⟩ := items_append_inj hts.2 hus.2 hx hy hrest
          exact ⟨rfl, hxy⟩

theorem fields_append_inj {fs gs : List (String × Term)} {x y : List Char} (hfs : WellNamedFields fs)
    (hgs : WellNamedFields gs) (hx : Ends x) (hy : Ends y)
    (h : following (renderFields fs) ++ x = following (renderFields gs) ++ y) : fs = gs ∧ x = y := by
  cases fs with
  | nil =>
      cases gs with
      | nil => exact ⟨rfl, h⟩
      | cons g gs => exact absurd h (hx.ne_following _ _)
  | cons f fs =>
      obtain ⟨name, t⟩ := f
      cases gs with
      | nil => exact absurd h.symm (hy.ne_following _ _)
      | cons g gs =>
          obtain ⟨name', u⟩ := g
          simp only [renderFields, following_cons_append, List.append_assoc, List.cons_append,
            List.cons.injEq, true_and] at h
          obtain ⟨rfl, hvalue⟩ := name_append_inj hfs.1 hgs.1 (stops_cons rfl _) (stops_cons rfl _) h
          obtain ⟨rfl, hrest⟩ := render_append_inj hfs.2.1 hgs.2.1 (hx.closes_following _)
            (hy.closes_following _) (List.cons.inj hvalue).2
          obtain ⟨rfl, hxy⟩ := fields_append_inj hfs.2.2 hgs.2.2 hx hy hrest
          exact ⟨rfl, hxy⟩
end

/-! ## Printable characters -/

theorem isPrintable_of_isNameChar {c : Char} (h : isNameChar c) : Text.isPrintable c := by
  have hrange (low high : Char) (hlow : 0x20 ≤ low.toNat) (hhigh : high.toNat ≤ 0x7E)
      (hc : low.val ≤ c.val ∧ c.val ≤ high.val) : Text.isPrintable c :=
    Text.isPrintable_of_ascii (Nat.le_trans hlow hc.1) (Nat.le_trans hc.2 hhigh)
  rcases Bool.or_eq_true_iff.mp h with halphanum | hunderscore
  · rcases Bool.or_eq_true_iff.mp halphanum with halpha | hdigit
    · rcases Bool.or_eq_true_iff.mp halpha with hupper | hlower
      · exact hrange 'A' 'Z' (by decide) (by decide) (of_decide_eq_true hupper)
      · have hc := (Bool.and_eq_true_iff.mp hlower).imp of_decide_eq_true of_decide_eq_true
        exact hrange 'a' 'z' (by decide) (by decide) hc
    · have hc := (Bool.and_eq_true_iff.mp hdigit).imp of_decide_eq_true of_decide_eq_true
      exact hrange '0' '9' (by decide) (by decide) hc
  · rw [eq_of_beq hunderscore]
    exact Text.isPrintable_of_ascii (by decide) (by decide)

theorem forall_mem_separated {ts : List (List Char)} (h : ∀ t ∈ ts, ∀ c ∈ t, Text.isPrintable c) :
    ∀ c ∈ separated ts, Text.isPrintable c := by
  cases ts with
  | nil => exact List.forall_mem_nil _
  | cons t ts =>
      obtain ⟨ht, hts⟩ := List.forall_mem_cons.mp h
      refine List.forall_mem_append.mpr ⟨ht, fun c hc => ?_⟩
      obtain ⟨s, hs, hc⟩ := List.mem_flatMap.mp hc
      rcases List.mem_cons.mp hc with rfl | hc
      · exact Text.isPrintable_of_ascii (by decide) (by decide)
      rcases List.mem_cons.mp hc with rfl | hc
      · exact Text.isPrintable_of_ascii (by decide) (by decide)
      · exact hts s hs c hc

mutual
theorem forall_mem_render {t : Term} (ht : t.WellNamed) : ∀ c ∈ t.render, Text.isPrintable c := by
  have hname {name : String} (h : IsName name) : ∀ c ∈ name.toList, Text.isPrintable c :=
    fun c hc => isPrintable_of_isNameChar (h.2 c hc)
  have hquote (s : List Char) : ∀ c ∈ quote s, Text.isPrintable c := fun c => Text.isPrintable_of_mem_quote
  have hmark : ∀ c ∈ ['<', '.', ':', ' ', '>', '(', ')', ','], Text.isPrintable c :=
    Text.forall_isPrintable_of_ascii (by decide)
  cases t with
  | none =>
      rw [render]
      exact Text.forall_isPrintable_of_ascii (by decide)
  | truth b =>
      rw [render]
      cases b <;> exact Text.forall_isPrintable_of_ascii (by decide)
  | number n => exact Text.isPrintable_of_mem_decimal n
  | text s => exact hquote s.toList
  | member type name word =>
      simp only [render, List.append_assoc, List.cons_append, List.forall_mem_cons, List.forall_mem_append]
      exact ⟨hmark '<' (by decide), hname ht.1, hmark '.' (by decide), hname ht.2, hmark ':' (by decide),
        hmark ' ' (by decide), hquote _, hmark '>' (by decide), List.forall_mem_nil _⟩
  | literal type s =>
      simp only [render, List.append_assoc, List.cons_append, List.forall_mem_cons, List.forall_mem_append]
      exact ⟨hname ht, hmark '(' (by decide), hquote _, hmark ')' (by decide), List.forall_mem_nil _⟩
  | list items =>
      rw [render_list]
      refine List.forall_mem_cons.mpr ⟨hmark '(' (by decide), List.forall_mem_append.mpr
        ⟨forall_mem_separated (forall_mem_renderItems ht), ?_⟩⟩
      unfold ending
      split <;> exact Text.forall_isPrintable_of_ascii (by decide)
  | record type fields =>
      simp only [render, List.append_assoc, List.cons_append, List.forall_mem_cons, List.forall_mem_append]
      exact ⟨hname ht.1, hmark '(' (by decide), forall_mem_separated (forall_mem_renderFields ht.2),
        hmark ')' (by decide), List.forall_mem_nil _⟩

theorem forall_mem_renderItems {ts : List Term} (hts : WellNamedItems ts) :
    ∀ s ∈ renderItems ts, ∀ c ∈ s, Text.isPrintable c := by
  cases ts with
  | nil => exact List.forall_mem_nil _
  | cons t ts => exact List.forall_mem_cons.mpr ⟨forall_mem_render hts.1, forall_mem_renderItems hts.2⟩

theorem forall_mem_renderFields {fs : List (String × Term)} (hfs : WellNamedFields fs) :
    ∀ s ∈ renderFields fs, ∀ c ∈ s, Text.isPrintable c := by
  cases fs with
  | nil => exact List.forall_mem_nil _
  | cons f fs =>
      obtain ⟨name, t⟩ := f
      refine List.forall_mem_cons.mpr ⟨?_, forall_mem_renderFields hfs.2.2⟩
      simp only [List.forall_mem_cons, List.forall_mem_append]
      exact ⟨fun c hc => isPrintable_of_isNameChar (hfs.1.2 c hc),
        Text.isPrintable_of_ascii (by decide) (by decide), forall_mem_render hfs.2.1⟩
end

end Term

end Sdp
