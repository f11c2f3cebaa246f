import Sdp.Proofs.Session.Meaning
import Sdp.Proofs.Session.Run
import Sdp.Session.Section

/-!
# Where items go

Main statement: `Session.read_collects`, a session has all that the lines of its description say, each
thing in the section of its line.
-/

namespace Sdp

/-! ## Sections of items -/

theorem sections_media (m : Media) (items : List Item) :
    sections (.media m :: items) = ([], ⟨m, (sections items).1⟩ :: (sections items).2) := rfl

theorem sections_cons {item : Item} (h : ∀ m, item ≠ .media m) (items : List Item) :
    sections (item :: items) = (item :: (sections items).1, (sections items).2) := by
  cases item with
  | media m => exact absurd rfl (h m)
  | _ => rfl

/-- An induction over items that tells those that open a section from the others. -/
theorem sections_induction {motive : List Item → Prop} (nil : motive [])
    (media : ∀ m items, motive items → motive (.media m :: items))
    (cons : ∀ item items, (∀ m, item ≠ .media m) → motive items → motive (item :: items))
    (items : List Item) : motive items := by
  induction items with
  | nil => exact nil
  | cons item items ih =>
      by_cases hmedia : ∃ m, item = .media m
      · obtain ⟨m, rfl⟩ := hmedia
        exact media m items ih
      · exact cons item items (not_exists.mp hmedia) ih

/-- Sections lose nothing, and keep the order. -/
theorem flatten_sections (items : List Item) :
    (sections items).1 ++ (sections items).2.flatMap (fun part => .media part.media :: part.items) =
      items := by
  induction items using sections_induction with
  | nil => rfl
  | media m items ih => rw [sections_media, List.nil_append, List.flatMap_cons, List.cons_append, ih]
  | cons item items hitem ih => rw [sections_cons hitem, List.cons_append, ih]

theorem mem_of_mem_sections {items : List Item} {part : Section} (h : part ∈ (sections items).2) :
    .media part.media ∈ items ∧ part.items ⊆ items := by
  have hpart : ∀ item ∈ .media part.media :: part.items, item ∈ items := by
    intro item hitem
    rw [← flatten_sections items]
    exact List.mem_append_right _ (List.mem_flatMap.mpr ⟨part, h, hitem⟩)
  exact ⟨hpart _ (List.mem_cons_self ..), fun item hitem => hpart item (List.mem_cons_of_mem _ hitem)⟩

theorem mem_of_lastConnection? {items : List Item} {address : String}
    (h : lastConnection? items = some address) : .connection address ∈ items := by
  obtain ⟨item, hmem, hitem⟩ := List.mem_filterMap.mp (List.mem_of_getLast? h)
  cases item with
  | connection address' =>
      cases hitem
      exact hmem
  | _ => cases hitem

theorem attributesAmong_append (items rest : List Item) :
    attributesAmong (items ++ rest) = attributesAmong items ++ attributesAmong rest :=
  List.filterMap_append

theorem attributesAmong_cons (item : Item) (items : List Item) :
    attributesAmong (item :: items) = attributesAmong [item] ++ attributesAmong items :=
  attributesAmong_append [item] items

theorem lastConnection?_append (items rest : List Item) :
    lastConnection? (items ++ rest) = (lastConnection? rest <|> lastConnection? items) := by
  simp only [lastConnection?, List.filterMap_append, List.getLast?_append, Option.or_eq_orElse]
  rfl

theorem lastConnection?_cons (item : Item) (items : List Item) :
    lastConnection? (item :: items) = (lastConnection? items <|> lastConnection? [item]) :=
  lastConnection?_append [item] items

/-! ## What is added to a media description -/

/-- A media description with what some items add to it. -/
def Media.hear (items : List Item) (m : Media) : Media :=
  { m with
    attributes := m.attributes ++ attributesAmong items
    connection := lastConnection? items <|> m.connection }

namespace Media

theorem hear_nil : hear [] = id := by
  funext m
  simp [hear, attributesAmong, lastConnection?]

theorem hear_silent {item : Item} (ha : item.attribute? = none) (hc : item.connection? = none) :
    hear [item] = id := by
  funext m
  simp [hear, attributesAmong, lastConnection?, ha, hc]

theorem hear_attr (a : Attribute) :
    hear [.attr a] = fun m => { m with attributes := m.attributes ++ [a] } := rfl

theorem hear_connection (address : String) :
    hear [.connection address] = fun m => { m with connection := some address } := by
  funext m
  simp [hear, attributesAmong, lastConnection?, Item.attribute?, Item.connection?]

theorem hear_hear (items rest : List Item) (m : Media) :
    (m.hear items).hear rest = m.hear (items ++ rest) := by
  simp only [hear, attributesAmong_append, lastConnection?_append, List.append_assoc]
  cases lastConnection? rest <;> rfl

end Media

namespace Session

theorem updateLast_concat (f : Media → Media) (ms : List Media) (m : Media) :
    updateLast f (ms ++ [m]) = ms ++ [f m] := by
  induction ms with
  | nil => rfl
  | cons k ms ih =>
      cases ms with
      | nil => rfl
      | cons l ms => exact congrArg (k :: ·) ih

/-- A change to the last of some media descriptions, if there are any. -/
theorem updateLast_cases (ms : List Media) :
    ms = [] ∨ ∃ before m, ms = before ++ [m] ∧ ∀ f, updateLast f ms = before ++ [f m] := by
  rcases List.eq_nil_or_concat' ms with rfl | ⟨before, m, rfl⟩
  · exact Or.inl rfl
  · exact Or.inr ⟨before, m, rfl, fun f => updateLast_concat f before m⟩

theorem updateLast_updateLast (f g : Media → Media) (ms : List Media) :
    updateLast f (updateLast g ms) = updateLast (fun m => f (g m)) ms := by
  rcases updateLast_cases ms with rfl | ⟨before, m, -, hupdate⟩
  · rfl
  · rw [hupdate, hupdate, updateLast_concat]

theorem updateLast_id (ms : List Media) : updateLast id ms = ms := by
  rcases updateLast_cases ms with rfl | ⟨before, m, hms, hupdate⟩
  · rfl
  · rw [hupdate, hms, id]

theorem isEmpty_updateLast (f : Media → Media) (ms : List Media) :
    (updateLast f ms).isEmpty = ms.isEmpty := by
  rcases updateLast_cases ms with rfl | ⟨before, m, hms, hupdate⟩
  · rfl
  · rw [hupdate, hms]
    cases before <;> rfl

/-! ## One item -/

theorem media_add {item : Item} (h : ∀ m, item ≠ .media m) (s : Session) :
    (s.add item).media = updateLast (Media.hear [item]) s.media := by
  cases item with
  | media m => exact absurd rfl (h m)
  | attr a => cases hm : s.media.isEmpty <;> simp_all [add, Media.hear_attr, updateLast]
  | connection address => cases hm : s.media.isEmpty <;> simp_all [add, Media.hear_connection, updateLast]
  | _ => rw [Media.hear_silent rfl rfl, updateLast_id, add]

theorem attributes_add (s : Session) (item : Item) :
    (s.add item).attributes =
      if s.media.isEmpty then s.attributes ++ attributesAmong [item] else s.attributes := by
  cases item with
  | attr a => cases hm : s.media.isEmpty <;> simp [add, hm, attributesAmong, Item.attribute?]
  | connection address => cases hm : s.media.isEmpty <;> simp [add, hm, attributesAmong, Item.attribute?]
  | _ => simp [add, attributesAmong, Item.attribute?]

theorem connection_add (s : Session) (item : Item) :
    (s.add item).connection =
      if s.media.isEmpty then (lastConnection? [item] <|> s.connection) else s.connection := by
  cases item with
  | attr a => cases hm : s.media.isEmpty <;> simp [add, hm, lastConnection?, Item.connection?]
  | connection address => cases hm : s.media.isEmpty <;> simp [add, hm, lastConnection?, Item.connection?]
  | _ => simp [add, lastConnection?, Item.connection?]

/-- The fields of the session change wherever they are said. -/
theorem fields_add (s : Session) (item : Item) :
    (s.add item).version = item.version?.getD s.version ∧
    (s.add item).origin = (item.origin?.map some).getD s.origin ∧
    (s.add item).name = item.name?.getD s.name ∧
    (s.add item).timing = item.timing?.getD s.timing := by
  cases item with
  | attr a | connection address =>
      cases hm : s.media.isEmpty <;>
        simp [add, hm, Item.version?, Item.origin?, Item.name?, Item.timing?]
  | _ => exact ⟨rfl, rfl, rfl, rfl⟩

theorem isEmpty_media_add {item : Item} (h : ∀ m, item ≠ .media m) (s : Session) :
    (s.add item).media.isEmpty = s.media.isEmpty := by
  rw [media_add h, isEmpty_updateLast]

/-! ## All items -/

theorem media_foldl (items : List Item) (s : Session) :
    (items.foldl add s).media = updateLast (Media.hear (sections items).1) s.media ++
      (sections items).2.map fun part => part.media.hear part.items := by
  induction items using sections_induction generalizing s with
  | nil => simp [sections, Media.hear_nil, updateLast_id]
  | media m items ih =>
      -- All that follows goes to the new description, and no other is ever changed again.
      rw [List.foldl_cons, ih, sections_media, add, updateLast_concat, Media.hear_nil, updateLast_id]
      simp
  | cons item items hitem ih =>
      rw [List.foldl_cons, ih, sections_cons hitem, media_add hitem, updateLast_updateLast]
      simp only [Media.hear_hear, List.singleton_append]

/-- The attributes before the first media description, as long as there is none. -/
theorem attributes_foldl (items : List Item) (s : Session) :
    (items.foldl add s).attributes =
      if s.media.isEmpty then s.attributes ++ attributesAmong (sections items).1 else s.attributes := by
  induction items using sections_induction generalizing s with
  | nil => simp [sections, attributesAmong]
  | media m items ih =>
      rw [List.foldl_cons, ih]
      simp [sections_media, add, attributesAmong]
  | cons item items hitem ih =>
      rw [List.foldl_cons, ih, sections_cons hitem, isEmpty_media_add hitem, attributes_add,
        attributesAmong_cons item (sections items).1]
      split <;> simp only [List.append_assoc]

/-- The address before the first media description, as long as there is none. -/
theorem connection_foldl (items : List Item) (s : Session) :
    (items.foldl add s).connection =
      if s.media.isEmpty then (lastConnection? (sections items).1 <|> s.connection) else s.connection := by
  induction items using sections_induction generalizing s with
  | nil => simp [sections, lastConnection?]
  | media m items ih =>
      rw [List.foldl_cons, ih]
      simp [sections_media, add, lastConnection?]
  | cons item items hitem ih =>
      rw [List.foldl_cons, ih, sections_cons hitem, isEmpty_media_add hitem, connection_add,
        lastConnection?_cons item (sections items).1]
      cases lastConnection? (sections items).1 <;> split <;> rfl

/-- What can be said anywhere is what has been said last. -/
theorem foldl_said {α : Type} {get : Session → α} {said? : Item → Option α}
    (hadd : ∀ s item, get (s.add item) = (said? item).getD (get s)) (items : List Item) (s : Session) :
    get (items.foldl add s) = (items.filterMap said?).getLast?.getD (get s) := by
  induction items generalizing s with
  | nil => rfl
  | cons item items ih =>
      rw [List.foldl_cons, ih, hadd]
      cases hsaid : said? item with
      | none => rw [List.filterMap_cons_none hsaid, Option.getD_none]
      | some a => rw [List.filterMap_cons_some hsaid, List.getLast?_cons, Option.getD_some, Option.getD_some]

end Session

/-! ## What the lines give -/

theorem Says.media_fresh {line : List Char} {m : Media} (h : Says line (.media m)) :
    m.attributes = [] ∧ m.connection = none := by
  cases h
  exact ⟨rfl, rfl⟩

/-- An address is a word of its line. -/
theorem Says.connection_ne_empty {line : List Char} {address : String} (h : Says line (.connection address)) :
    address.isEmpty = false := by
  generalize hitem : Item.connection address = item at h
  cases h with
  | @connection value network family word field tokens internet known =>
      obtain ⟨hword, -⟩ := Text.forall_of_words_eq tokens word (by simp)
      cases hitem
      simpa using hword.1
  | _ => cases hitem

namespace Session

variable {policy : Policy} {s s' : Session} {n : Nat} {ls : List (List Char)} {events : List Event}

/-- A run adds what its lines say, one after the other. -/
theorem readLines_items (h : readLines policy s n ls = (events, .ok s')) :
    ∃ items, List.Forall₂ (fun line item => Says (heard policy.mode line) item) ls items ∧
      s'.withoutWarnings = items.foldl add s.withoutWarnings := by
  induction ls generalizing s n events with
  | nil =>
      cases h
      exact ⟨[], .nil, rfl⟩
  | cons line rest ih =>
      rcases readLines_cons_cases policy s n line rest with
        ⟨e, -, hline⟩ | ⟨item, tail, result, hitem, hrest, hline⟩
      · cases hline.symm.trans h
      · obtain ⟨rfl, rfl⟩ := Prod.mk.inj (hline.symm.trans h)
        obtain ⟨items, hsays, hfold⟩ := ih hrest
        refine ⟨item :: items, .cons ((LineReading.item_ofLine_eq_ok_iff policy.mode).mp hitem) hsays, ?_⟩
        rw [hfold, withoutWarnings_add, withoutWarnings_warn, List.foldl_cons]

/-- A session to which some items have been added, from nothing on, has collected them. -/
theorem collects_of_foldl {items : List Item} (hitems : ∀ item ∈ items, ∃ line, Says line item)
    (h : s.withoutWarnings = items.foldl add {}) : s.Collects items := by
  have horigin : (items.foldl add {}).origin = (items.filterMap Item.origin?).getLast? := by
    rw [foldl_said (fun s item => (fields_add s item).2.1), ← List.map_filterMap, List.getLast?_map]
    cases (items.filterMap Item.origin?).getLast? <;> rfl
  have hconnection : s.connection = lastConnection? (sections items).1 := by
    refine (congrArg connection h).trans ((connection_foldl items {}).trans ?_)
    cases lastConnection? (sections items).1 <;> rfl
  have hread : ∀ part ∈ (sections items).2, part.media.hear part.items = part.read := by
    intro part hpart
    obtain ⟨line, hline⟩ := hitems _ (mem_of_mem_sections hpart).1
    obtain ⟨hattributes, hempty⟩ := hline.media_fresh
    simp [Media.hear, Section.read, hattributes, hempty]
  have hown : ∀ part ∈ (sections items).2,
      (lastConnection? part.items).filter (!·.isEmpty) = lastConnection? part.items := by
    intro part hpart
    cases hlast : lastConnection? part.items with
    | none => rfl
    | some address =>
        obtain ⟨line, hline⟩ := hitems _ ((mem_of_mem_sections hpart).2 (mem_of_lastConnection? hlast))
        rw [Option.filter_some, hline.connection_ne_empty]
        rfl
  exact
    { version := (congrArg version h).trans (foldl_said (fun s item => (fields_add s item).1) items {})
      origin := (congrArg origin h).trans horigin
      name := (congrArg name h).trans (foldl_said (fun s item => (fields_add s item).2.2.1) items {})
      timing := (congrArg timing h).trans (foldl_said (fun s item => (fields_add s item).2.2.2) items {})
      attributes := (congrArg attributes h).trans (attributes_foldl items {})
      connection := hconnection
      media := (congrArg media h).trans ((media_foldl items {}).trans (List.map_congr_left hread))
      connectionOf := fun part hpart => by
        unfold connectionOf
        rw [hconnection, Section.read, hown part hpart] }

theorem exists_says_of_mem {ls : List (List Char)} {items : List Item} (h : List.Forall₂ Says ls items) :
    ∀ item ∈ items, ∃ line, Says line item := by
  induction h with
  | nil => exact List.forall_mem_nil _
  | cons hline _ ih => exact List.forall_mem_cons.mpr ⟨⟨_, hline⟩, ih⟩

/-- A session has all that the lines of its description say, each thing in the section of its line. -/
theorem read_collects {policy : Policy} {text : List Char} {s : Session}
    (h : (read policy text).2 = .ok s) :
    ∃ items,
      (∀ items', List.Forall₂ Says ((Text.lines text).map (heard policy.mode)) items' ↔ items' = items) ∧
      s.Collects items := by
  have hlines : (readLines policy {} 1 (Text.lines text)).2 = .ok s := by
    unfold read at h
    split at h
    · cases h
    · exact h
  obtain ⟨items, hsays, hfold⟩ := readLines_items (Prod.ext rfl hlines)
  rw [← List.forall₂_map_left_iff] at hsays
  have hunique : Relator.RightUnique (List.Forall₂ Says) :=
    Relator.RightUnique.forall₂ fun _ _ _ hi hj => hi.unique hj
  refine ⟨items, fun items' => ⟨fun h' => hunique h' hsays, fun he => he ▸ hsays⟩, ?_⟩
  exact collects_of_foldl (exists_says_of_mem hsays) hfold

/-- The version is that of the last line that says one, wherever it stands, and the attributes stay
before and behind the media description as they do in the text. -/
theorem read_collects_of_two_sections :
    let text := "v=1\na=mid:0\nm=audio 9/2 RTP/AVP 0\na=x\nc=IN IP4 10.0.0.1\nv=2\na=mid:1".toList
    let s : Session :=
      { version := "2", attributes := [.label .mid "0"]
        media := [{ type := "audio", port := 9, protocol := "RTP/AVP", formats := ["0"]
                    attributes := [.label .mid "1"], connection := some "10.0.0.1" }]
        warnings := [⟨4, fault .unknownAttribute ['x']⟩] }
    (read {} text).2 = .ok s ∧
      ∃ items,
        (∀ items', List.Forall₂ Says ((Text.lines text).map (heard .lenient)) items' ↔ items' = items) ∧
        s.Collects items := by
  intro text s
  have hmid0 : LineReading.ofLine .lenient "a=mid:0".toList = { item := .ok (.attr (.label .mid "0")) } := by
    change LineReading.ofAttribute .lenient _ = _
    rw [LineReading.ofAttribute]
    rfl
  have hmid1 : LineReading.ofLine .lenient "a=mid:1".toList = { item := .ok (.attr (.label .mid "1")) } := by
    change LineReading.ofAttribute .lenient _ = _
    rw [LineReading.ofAttribute]
    rfl
  have hx : LineReading.ofLine .lenient "a=x".toList =
      { skipped := [fault .unknownAttribute ['x']], item := .ok .nothing } := by
    change LineReading.ofAttribute .lenient _ = _
    rw [LineReading.ofAttribute]
    rfl
  have hlines : Text.lines text =
      ["v=1", "a=mid:0", "m=audio 9/2 RTP/AVP 0", "a=x", "c=IN IP4 10.0.0.1", "v=2", "a=mid:1"].map
        String.toList := by
    decide
  have hread : (read {} text).2 = .ok s := by
    rw [read, if_neg (by decide), hlines]
    simp only [List.map_cons, readLines, hmid0, hmid1, hx]
    rfl
  exact ⟨hread, read_collects hread⟩

end Session

end Sdp
