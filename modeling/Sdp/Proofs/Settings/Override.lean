import Mathlib.Data.List.Induction
import Sdp.Proofs.Data.Fields
import Sdp.Settings.Setting

/-!
# What the environment overrides

Main statements: `get?_fieldsOf_override`, of the variables for a setting the last one counts, and
`misshapen_override_iff`, no variable mends a section.
-/

namespace Sdp

namespace Document

variable {d : Document}

theorem get?_fields (d : Document) (name : String) : d.fields.get? name = (d.nodes.get? name).map d.value :=
  Named.get?_map d.value d.nodes name

/-- What stands at a node depends on the mapping there alone, unless it is the document. -/
theorem map_value_congr {d' : Document} {node : Option Node} (hwhole : node ≠ some .whole)
    (hshared : ∀ i, node = some (.shared i) → d'.shared i = d.shared i) :
    node.map d'.value = node.map d.value := by
  cases node with
  | none => rfl
  | some node =>
      cases node with
      | own v => rfl
      | shared i => exact congrArg (fun fields => some (Value.record fields)) (hshared i rfl)
      | whole => exact absurd rfl hwhole

end Document

namespace Settings

variable {d : Document} {name other : String}

/-! ## One variable -/

theorem underscore_not_mem_home (x : Setting) : '_' ∉ x.home.toList := by
  cases x <;> decide

theorem home_mem_sectionNames (x : Setting) : x.home ∈ sectionNames := by
  cases x <;> decide

theorem key_ne_empty (x : Setting) : x.key ≠ "" := by
  cases x <;> decide

theorem settingOf?_eq_some_iff {x : Setting} : settingOf? name = some (x.home, x.key) ↔ x.IsNamedBy name := by
  constructor
  · intro h
    unfold settingOf? at h
    split at h
    · cases h
    · next hname =>
        rw [not_or, Bool.not_eq_true', Bool.not_eq_false] at hname
        obtain ⟨rest, hrest⟩ := List.isPrefixOf_iff_prefix.mp hname.2
        obtain ⟨⟨s, key⟩, hcut, hkey⟩ := Option.bind_eq_some_iff.mp h
        rw [← hrest, List.drop_left] at hcut
        obtain ⟨-, hplace⟩ := Option.ite_none_right_eq_some.mp hkey
        obtain ⟨hs, hk⟩ := Prod.mk.inj (Option.some.inj hplace)
        refine ⟨hname.1, rest, hrest.symm, ?_⟩
        rw [(Text.eq_of_cut_eq_some hcut).1, ← hs, ← hk, String.toList_ofList, String.toList_ofList]
  · rintro ⟨hpath, rest, hname, hrest⟩
    have hprefix : variablePrefix.isPrefixOf name.toList :=
      List.isPrefixOf_iff_prefix.mpr ⟨rest, hname.symm⟩
    rw [settingOf?, if_neg (by simp [hpath, hprefix]), hname, List.drop_left, hrest,
      Text.cut_append (underscore_not_mem_home x)]
    simp [home_mem_sectionNames x, key_ne_empty x]

theorem mem_sectionNames_of_settingOf? {s key : String} (h : settingOf? name = some (s, key)) :
    s ∈ sectionNames := by
  unfold settingOf? at h
  split at h
  · cases h
  · obtain ⟨⟨s', key'⟩, -, hplace⟩ := Option.bind_eq_some_iff.mp h
    obtain ⟨⟨hs, -⟩, heq⟩ := Option.ite_none_right_eq_some.mp hplace
    exact (Prod.mk.inj (Option.some.inj heq)).1 ▸ hs

/-- What is no mapping is left alone. -/
theorem put_of_misshapen (h : Misshapen d.fields name) (key : String) (v : Value) : d.put name key v = d := by
  obtain ⟨w, hw, hrecord⟩ := h
  rw [Document.get?_fields] at hw
  unfold Document.put
  split
  · next hnode => rw [hnode] at hw; cases hw
  · next fields hnode =>
      rw [hnode] at hw
      exact absurd (Option.some.inj hw).symm (hrecord fields)
  · rfl
  · next i hnode =>
      rw [hnode] at hw
      exact absurd (Option.some.inj hw).symm (hrecord _)
  · next hnode =>
      rw [hnode] at hw
      exact absurd (Option.some.inj hw).symm (hrecord _)

/-- In a section that is apart, a setting is put into the fields that it has. -/
theorem get?_put_self (hd : d.Apart sectionNames) (hname : name ∈ sectionNames)
    (h : ¬ Misshapen d.fields name) (key : String) (v : Value) :
    (d.put name key v).fields.get? name = some (.record ((fieldsOf d.fields name).put key v)) := by
  have hnode := Document.get?_fields d name
  unfold fieldsOf
  rw [Document.get?_fields]
  unfold Document.put
  split
  · next hnone =>
      rw [hnone] at hnode
      rw [hnode, Named.get?_put_self]
      rfl
  · next fields hown =>
      rw [hown] at hnode
      rw [hnode, Named.get?_put_self]
      rfl
  · next w hrecord hown =>
      rw [hown] at hnode
      exact absurd ⟨w, hnode, hrecord⟩ h
  · next i hshared =>
      rw [hshared] at hnode ⊢
      rw [hnode]
      simp [Document.value]
  · next hwhole => exact absurd hwhole (hd.whole name hname)

theorem get?_put_of_ne (hd : d.Apart sectionNames) (hname : name ∈ sectionNames)
    (hother : other ∈ sectionNames) (hne : other ≠ name) (key : String) (v : Value) :
    (d.put name key v).fields.get? other = d.fields.get? other := by
  have hwhole := hd.whole other hother
  rw [Document.get?_fields, Document.get?_fields]
  unfold Document.put
  split
  · rw [Named.get?_put_of_ne hne]
    exact Document.map_value_congr hwhole (fun _ _ => rfl)
  · rw [Named.get?_put_of_ne hne]
    exact Document.map_value_congr hwhole (fun _ _ => rfl)
  · rfl
  · next i hshared =>
      refine Document.map_value_congr hwhole fun j hj => ?_
      have hji : j ≠ i := by
        rintro rfl
        exact hne (hd.shared other hother name hname j hj hshared)
      exact if_neg hji
  · next hself => exact absurd hself (hd.whole name hname)

theorem apart_put (hd : d.Apart sectionNames) (hname : name ∈ sectionNames) (key : String) (v : Value) :
    (d.put name key v).Apart sectionNames := by
  have hput {w : Value} {target : Node} {other : String} (hnode : ∀ w, target ≠ .own w)
      (h : (d.nodes.put name (.own w)).get? other = some target) : d.nodes.get? other = some target := by
    rw [Named.get?_put] at h
    split at h
    · exact absurd (Option.some.inj h).symm (hnode w)
    · exact h
  have hown (w : Value) : Document.Apart { d with nodes := d.nodes.put name (.own w) } sectionNames := {
    whole := fun other hother h => hd.whole other hother (hput nofun h)
    shared := fun a ha b hb i hi hj => hd.shared a ha b hb i (hput nofun hi) (hput nofun hj) }
  unfold Document.put
  split
  · exact hown _
  · exact hown _
  · exact hd
  · exact ⟨hd.whole, hd.shared⟩
  · next hself => exact absurd hself (hd.whole name hname)

theorem fieldsOf_put_self (hd : d.Apart sectionNames) (hname : name ∈ sectionNames)
    (h : ¬ Misshapen d.fields name) (key : String) (v : Value) :
    fieldsOf (d.put name key v).fields name = (fieldsOf d.fields name).put key v := by
  rw [fieldsOf, get?_put_self hd hname h]

theorem fieldsOf_put_of_ne (hd : d.Apart sectionNames) (hname : name ∈ sectionNames)
    (hother : other ∈ sectionNames) (hne : other ≠ name) (key : String) (v : Value) :
    fieldsOf (d.put name key v).fields other = fieldsOf d.fields other := by
  rw [fieldsOf, get?_put_of_ne hd hname hother hne, fieldsOf]

theorem misshapen_put_iff (hd : d.Apart sectionNames) (hname : name ∈ sectionNames)
    (hother : other ∈ sectionNames) (key : String) (v : Value) :
    Misshapen (d.put name key v).fields other ↔ Misshapen d.fields other := by
  by_cases hne : other = name
  · subst hne
    by_cases h : Misshapen d.fields other
    · rw [put_of_misshapen h]
    · refine iff_of_false (fun ⟨w, hw, hrecord⟩ => ?_) h
      rw [get?_put_self hd hname h] at hw
      exact hrecord _ (Option.some.inj hw).symm
  · rw [Misshapen, get?_put_of_ne hd hname hother hne, Misshapen]

theorem misshapen_fields_iff :
    Misshapen d.fields name ↔ ∃ v, d.nodes.get? name = some (.own v) ∧ ∀ fields, v ≠ .record fields := by
  rw [Misshapen, Document.get?_fields]
  constructor
  · rintro ⟨w, hw, hrecord⟩
    obtain ⟨node, hnode, rfl⟩ := Option.map_eq_some_iff.mp hw
    cases node with
    | own v => exact ⟨v, hnode, hrecord⟩
    | shared i => exact absurd rfl (hrecord _)
    | whole => exact absurd rfl (hrecord _)
  · rintro ⟨v, hnode, hrecord⟩
    exact ⟨v, by rw [hnode]; rfl, hrecord⟩

/-- A section that is no mapping does not become one, even if the value is put into the document. -/
theorem misshapen_put (h : Misshapen d.fields name) (other key : String) {v : Value}
    (hv : ∀ fields, v ≠ .record fields) : Misshapen (d.put other key v).fields name := by
  obtain ⟨w, hnode, hrecord⟩ := misshapen_fields_iff.mp h
  rw [misshapen_fields_iff]
  unfold Document.put
  split
  · next hnone =>
      have hne : name ≠ other := by
        rintro rfl
        cases hnone.symm.trans hnode
      exact ⟨w, (Named.get?_put_of_ne hne _ _).trans hnode, hrecord⟩
  · next fields hfields =>
      have hne : name ≠ other := by
        rintro rfl
        cases hfields.symm.trans hnode
        exact hrecord _ rfl
      exact ⟨w, (Named.get?_put_of_ne hne _ _).trans hnode, hrecord⟩
  · exact ⟨w, hnode, hrecord⟩
  · exact ⟨w, hnode, hrecord⟩
  · by_cases hkey : name = key
    · exact ⟨v, by rw [hkey]; exact Named.get?_put_self _ _ _, hv⟩
    · exact ⟨w, (Named.get?_put_of_ne hkey _ _).trans hnode, hrecord⟩

theorem apart_ofFields (fields : Fields) : (Document.ofFields fields).Apart sectionNames := by
  have hown (name : String) : (Document.ofFields fields).nodes.get? name = (fields.get? name).map .own :=
    Named.get?_map Node.own fields name
  constructor
  · intro name _ h
    rw [hown] at h
    cases hv : fields.get? name <;> simp [hv] at h
  · intro name _ other _ i h
    rw [hown] at h
    cases hv : fields.get? name <;> simp [hv] at h

/-! ## All variables -/

theorem override_concat (d : Document) (env : Environment) (assigned : String × String) :
    override d (env ++ [assigned]) =
      match settingOf? assigned.1 with
      | some (s, key) => (override d env).put s key (valueOf assigned.2.toList)
      | none => override d env := by
  rw [override, List.foldl_append]
  rfl

theorem apart_override (hd : d.Apart sectionNames) (env : Environment) : (override d env).Apart sectionNames := by
  induction env using List.reverseRecOn with
  | nil => exact hd
  | append_singleton env assigned ih =>
      rw [override_concat]
      split
      · next hplace => exact apart_put ih (mem_sectionNames_of_settingOf? hplace) _ _
      · exact ih

/-- A section that is no record is not mended by variables, nor is any other spoilt. -/
theorem misshapen_override_iff (hd : d.Apart sectionNames) (env : Environment) (hname : name ∈ sectionNames) :
    Misshapen (override d env).fields name ↔ Misshapen d.fields name := by
  induction env using List.reverseRecOn with
  | nil => rfl
  | append_singleton env assigned ih =>
      rw [override_concat]
      split
      · next hplace =>
          rw [misshapen_put_iff (apart_override hd env) (mem_sectionNames_of_settingOf? hplace) hname, ih]
      · exact ih

theorem valueOf_ne_record (s : List Char) (fields : Fields) : valueOf s ≠ .record fields := by
  unfold valueOf
  split
  · nofun
  · split
    · nofun
    · split <;> nofun

/-- No variable mends a section that is no record, whatever else stands in the document. -/
theorem misshapen_override (h : Misshapen d.fields name) (env : Environment) :
    Misshapen (override d env).fields name := by
  induction env using List.reverseRecOn with
  | nil => exact h
  | append_singleton env assigned ih =>
      rw [override_concat]
      split
      · exact misshapen_put ih _ _ (valueOf_ne_record _)
      · exact ih

theorem given?_concat_of_isNamedBy {x : Setting} {assigned : String × String}
    (h : x.IsNamedBy assigned.1) (env : Environment) :
    x.given? (env ++ [assigned]) = some (valueOf assigned.2.toList) := by
  simp [Setting.given?, h]

theorem given?_concat_of_not_isNamedBy {x : Setting} {assigned : String × String}
    (h : ¬ x.IsNamedBy assigned.1) (env : Environment) : x.given? (env ++ [assigned]) = x.given? env := by
  simp [Setting.given?, h]

/-- Of the variables for a setting the last one counts, and without any the file does. -/
theorem get?_fieldsOf_override (hd : d.Apart sectionNames) {x : Setting} (h : ¬ Misshapen d.fields x.home)
    (env : Environment) :
    (fieldsOf (override d env).fields x.home).get? x.key = x.raw? d.fields env := by
  induction env using List.reverseRecOn with
  | nil => rfl
  | append_singleton env assigned ih =>
      have hhome := home_mem_sectionNames x
      have hapart := apart_override hd env
      have hshape := mt (misshapen_override_iff hd env hhome).mp h
      rw [override_concat, Setting.raw?]
      cases hplace : settingOf? assigned.1 with
      | none =>
          have hnamed : ¬ x.IsNamedBy assigned.1 := fun hx => by
            cases hplace.symm.trans (settingOf?_eq_some_iff.mpr hx)
          rw [given?_concat_of_not_isNamedBy hnamed]
          exact ih
      | some place =>
          obtain ⟨s, key⟩ := place
          -- The variable is for this setting, for another one of its section, or for another section.
          by_cases hnamed : x.IsNamedBy assigned.1
          · obtain ⟨rfl, rfl⟩ :=
              Prod.mk.inj (Option.some.inj (hplace.symm.trans (settingOf?_eq_some_iff.mpr hnamed)))
            rw [given?_concat_of_isNamedBy hnamed]
            exact (congrArg (Named.get? · x.key) (fieldsOf_put_self hapart hhome hshape x.key _)).trans
              (Named.get?_put_self _ _ _)
          · have hother : ¬ (x.home = s ∧ x.key = key) := fun ⟨hs, hkey⟩ =>
              hnamed (settingOf?_eq_some_iff.mp (by rw [hplace, hs, hkey]))
            have hsection := mem_sectionNames_of_settingOf? hplace
            rw [given?_concat_of_not_isNamedBy hnamed, ← Setting.raw?, ← ih]
            by_cases hs : x.home = s
            · subst hs
              have hkey : x.key ≠ key := fun hkey => hother ⟨rfl, hkey⟩
              exact (congrArg (Named.get? · x.key) (fieldsOf_put_self hapart hhome hshape key _)).trans
                (Named.get?_put_of_ne hkey _ _)
            · exact congrArg (Named.get? · x.key) (fieldsOf_put_of_ne hapart hsection hhome hs key _)

end Settings

end Sdp
