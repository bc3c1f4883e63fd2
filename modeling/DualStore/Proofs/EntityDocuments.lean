import DualStore.Proofs.EntityMetadata
import DualStore.Proofs.StoredDocuments

/-!
# Entities in their documents

An entity is put into a document under another name of its identity and without its ignored fields,
and it is read from the document under the declared name again. What is read has all fields of the
entity but the ignored ones.

* `Model.Carries`: the entities that can be kept in documents;
* `Carries.storable`, `Carries.reread`: their documents are read as they are;
* `Model.WithoutIgnored`, `withoutIgnored_entityFields`: the fields that come back;
* `Layout.initial?`, `read?_withoutIgnored`: the entity that they are read as.
-/

namespace DualStore

open Document (idKey ignores)

namespace Model

/-- Whether the fields of an entity can be kept in a document: they carry the identity under its
declared name, no other one is named like the identity of a document, and their text gives them
back. -/
structure Carries (m : EntityMeta) (id : Int) (body : Fields) : Prop where
  identity : Keyed.get? m.idField body = some (.int id)
  fits : Decimal.fitsInt64 id = true
  noOther : m.idField ≠ idKey → idKey ∉ Keyed.keys body
  exact : Json.isExact Json.maxLevels (.obj body) = true

/-- Whether fields are those of an entity but the ignored ones. -/
structure WithoutIgnored (m : EntityMeta) (body found : Fields) : Prop where
  nodup : (Keyed.keys found).Nodup
  fields : ∀ key, Keyed.get? key found
    = if ignores m.fields key then none else Keyed.get? key body

variable {m : EntityMeta} {id : Int} {body : Fields}

namespace Carries

theorem parts (h : Carries m id body) : (Keyed.keys body).Nodup ∧
    ∀ field ∈ body, Json.isExact Document.fieldLevels field.2 = true := by
  have hexact : Json.isExact (Document.fieldLevels + 1) (.obj body) = true := h.exact
  rw [Json.isExact, Bool.and_eq_true, decide_eq_true_eq, List.all_eq_true] at hexact
  exact hexact

theorem identityOf {t : EntityType} (hkey : t.key = m.idField) (h : Carries m id body) :
    t.identityOf (.obj body) = id := by
  have hint : Json.asInt64? (.int id) = some id := by
    rw [Json.asInt64?, if_pos h.fits]
  simp only [EntityType.identityOf, Layout.identity, hkey, Json.field?, h.identity,
    Option.bind_some, hint, Option.getD_some]

/-- An entity still can be kept when it gets another identity. -/
theorem withIdentity (h : Carries m id body) {next : Int}
    (hnext : Decimal.fitsInt64 next = true) :
    Carries m next (Keyed.put m.idField (.int next) body) where
  identity := Keyed.get?_put_self _ _ _
  fits := hnext
  noOther := by
    intro hne hmem
    rcases (Keyed.mem_keys_put _ _ _ _).mp hmem with heq | hmem
    · exact hne heq.symm
    · exact h.noOther hne hmem
  exact := by
    have hint : Json.isExact Document.fieldLevels (.int next) = true := by
      rw [Decimal.fitsInt64_iff, Decimal.int64Min, Decimal.int64Max] at hnext
      simp only [Document.fieldLevels, Json.isExact, Bool.and_eq_true, decide_eq_true_eq]
      omega
    show Json.isExact (Document.fieldLevels + 1) _ = true
    rw [Json.isExact, Bool.and_eq_true, decide_eq_true_eq, List.all_eq_true]
    refine ⟨Keyed.nodup_put h.parts.1 _ _, fun field hfield => ?_⟩
    rcases (Keyed.mem_put h.parts.1 _ _ field).mp hfield with rfl | ⟨hmem, _⟩
    · exact hint
    · exact h.parts.2 field hmem

/-! ## The document of an entity -/

variable {d : Document}

theorem id_ofEntity (hd : Document.ofEntity m id (.obj body) = .ok d) : d.id = id := by
  rw [← Except.ok.inj hd]
  rfl

theorem mem_body (h : Carries m id body) (hd : Document.ofEntity m id (.obj body) = .ok d)
    {field : String × Json} (hfield : field ∈ d.fields) : field ∈ body := by
  have hwithout := Keyed.nodup_swapErase h.parts.1 m.idField
  rw [← Except.ok.inj hd] at hfield
  have hkept := ((Keyed.mem_swapErase (Document.nodup_dropIgnored hwithout _) _ _).mp hfield).1
  exact ((Keyed.mem_swapErase h.parts.1 _ _).mp (Document.mem_of_mem_dropIgnored hwithout hkept)).1

/-- The document has the fields of the entity but the identity and the ignored ones. -/
theorem get?_fields (h : Carries m id body) (hd : Document.ofEntity m id (.obj body) = .ok d)
    (key : String) :
    Keyed.get? key d.fields
      = if idKey = key then none else if ignores m.fields key then none
        else if m.idField = key then none else Keyed.get? key body := by
  have hwithout := Keyed.nodup_swapErase h.parts.1 m.idField
  have hfields : d.fields = Keyed.swapErase idKey
      (Document.dropIgnored (Keyed.swapErase m.idField body) m.fields) := by
    rw [← Except.ok.inj hd]
    rfl
  rw [hfields, Keyed.get?_swapErase (Document.nodup_dropIgnored hwithout _),
    Document.get?_dropIgnored_eq hwithout, Keyed.get?_swapErase h.parts.1]

theorem storable (h : Carries m id body) (hd : Document.ofEntity m id (.obj body) = .ok d) :
    d.Storable where
  fits := by
    rw [id_ofEntity hd]
    exact h.fits
  nodup := by
    rw [← Except.ok.inj hd]
    exact Keyed.nodup_swapErase
      (Document.nodup_dropIgnored (Keyed.nodup_swapErase h.parts.1 _) _) _
  notIdKey := by
    rw [← Keyed.get?_eq_none_iff, h.get?_fields hd, if_pos rfl]
  readable := fun field hfield =>
    Json.isReadable_of_isExact (h.parts.2 field (h.mem_body hd hfield))

/-- The document is read as it is. -/
theorem reread (h : Carries m id body) (hd : Document.ofEntity m id (.obj body) = .ok d) :
    d.reread = d := by
  have hsame : ∀ field ∈ d.fields, (field.1, field.2.reread) = field := by
    intro field hfield
    rw [Json.reread_of_isExact (h.parts.2 field (h.mem_body hd hfield))]
  rw [Document.reread, Json.rereadFields_eq_map, List.map_congr_left hsame, List.map_id']

/-- **The fields of an entity that are read from its document** are all but the ignored ones. -/
theorem withoutIgnored_entityFields (h : Carries m id body) (hm : m.IsChecked)
    (hd : Document.ofEntity m id (.obj body) = .ok d) :
    WithoutIgnored m body (Document.entityFields m.idField ((idKey, .int id) :: d.fields)) := by
  have hstorable := h.storable hd
  have hnodup : (Keyed.keys ((idKey, Json.int id) :: d.fields)).Nodup :=
    List.nodup_cons.mpr ⟨hstorable.notIdKey, hstorable.nodup⟩
  have hfound : Keyed.get? idKey ((idKey, Json.int id) :: d.fields) = some (.int id) := by
    rw [Keyed.get?, if_pos rfl]
  have hrest := Keyed.get?_swapErase hnodup idKey
  have habsent : Keyed.has m.idField (Keyed.swapErase idKey ((idKey, Json.int id) :: d.fields))
      = false := by
    rw [Keyed.has_eq_isSome, hrest, Keyed.get?, h.get?_fields hd]
    by_cases hne : idKey = m.idField
    · rw [if_pos hne]
      rfl
    · rw [if_neg hne, if_neg hne, if_neg hne, if_pos rfl, ite_self]
      rfl
  have hkept : ignores m.fields m.idField = false := by
    rw [ignores, List.any_eq_false]
    intro field hfield hboth
    rw [Bool.and_eq_true, decide_eq_true_eq] at hboth
    exact hm.identity field hfield hboth.2
  have heq : Document.entityFields m.idField ((idKey, .int id) :: d.fields)
      = Keyed.put m.idField (.int id)
          (Keyed.swapErase idKey ((idKey, Json.int id) :: d.fields)) := by
    simp only [Document.entityFields, hfound, habsent, Bool.false_eq_true, if_false]
  rw [heq]
  refine ⟨Keyed.nodup_put (Keyed.nodup_swapErase hnodup _) _ _, fun key => ?_⟩
  by_cases hkey : m.idField = key
  · rw [← hkey, Keyed.get?_put_self, hkept, h.identity]
    rfl
  · rw [Keyed.get?_put_of_ne hkey, hrest, Keyed.get?, h.get?_fields hd, if_neg hkey]
    by_cases hidKey : idKey = key
    · have hnone : Keyed.get? key body = none := by
        rw [Keyed.get?_eq_none_iff, ← hidKey]
        exact h.noOther fun heq => hkey (heq.trans hidKey)
      rw [if_pos hidKey, hnone, ite_self]
    · rw [if_neg hidKey, if_neg hidKey, if_neg hidKey]

end Carries

/-! ## The entity that is read -/

def Layout.initial? : Layout → String → Option Json
  | .record members, key =>
    (members.find? fun member => member.name = key).map fun member => member.type.initial
  | .integer, _ => none
  | .anything, _ => none

def Member.value? (fields : Fields) (member : Member) : Option Json :=
  match Keyed.get? member.name fields with
  | some v => member.type.read? v
  | none => some member.type.initial

theorem readMembers_cons (fields : Fields) (member : Member) (rest : List Member) :
    readMembers fields (member :: rest) = (member.value? fields).bind fun v =>
      (readMembers fields rest).map fun others => (member.name, v) :: others := by
  rw [readMembers, Member.value?]
  cases Keyed.get? member.name fields with
  | none => cases readMembers fields rest <;> rfl
  | some v => cases member.type.read? v <;> cases readMembers fields rest <;> rfl

/-- Members that are read without the ignored fields: those of the ignored fields have the values of
missing ones. -/
theorem readMembers_withoutIgnored {found : Fields} (h : WithoutIgnored m body found)
    {members : List Member} {read : Fields} (hread : readMembers body members = some read) :
    ∃ kept, readMembers found members = some kept ∧ ∀ key, Keyed.get? key kept
      = if ignores m.fields key then Layout.initial? (.record members) key
        else Keyed.get? key read := by
  induction members generalizing read with
  | nil =>
    rw [readMembers, Option.some.injEq] at hread
    subst hread
    exact ⟨[], rfl, fun key => by simp [Keyed.get?, Layout.initial?]⟩
  | cons member rest ih =>
    rw [readMembers_cons] at hread
    obtain ⟨v, hv, hread⟩ := Option.bind_eq_some_iff.mp hread
    obtain ⟨others, hothers, rfl⟩ := Option.map_eq_some_iff.mp hread
    obtain ⟨kept, hkept, hfields⟩ := ih hothers
    -- The member has a value in both; the later members are those of the induction.
    have hcons : ∀ given, member.value? found = some given →
        given = (if ignores m.fields member.name then member.type.initial else v) →
        ∃ kept, readMembers found (member :: rest) = some kept ∧ ∀ key, Keyed.get? key kept
          = if ignores m.fields key then Layout.initial? (.record (member :: rest)) key
            else Keyed.get? key ((member.name, v) :: others) := by
      intro given hgiven heq
      refine ⟨(member.name, given) :: kept, by rw [readMembers_cons, hgiven, hkept]; rfl, ?_⟩
      intro key
      by_cases hname : member.name = key
      · rw [Keyed.get?, if_pos hname, Keyed.get?, if_pos hname, Layout.initial?,
          List.find?_cons_of_pos (by simpa using hname), Option.map_some, heq, ← hname]
        cases ignores m.fields member.name <;> rfl
      · rw [Keyed.get?, if_neg hname, Keyed.get?, if_neg hname, Layout.initial?,
          List.find?_cons_of_neg (by simpa using hname), hfields, Layout.initial?]
    cases hignored : ignores m.fields member.name with
    | true =>
      refine hcons member.type.initial ?_ (by rw [hignored, if_pos rfl])
      rw [Member.value?, h.fields, hignored, if_pos rfl]
    | false =>
      refine hcons v ?_ (by rw [hignored, if_neg Bool.false_ne_true])
      rw [← hv, Member.value?, Member.value?, h.fields, hignored, if_neg Bool.false_ne_true]

/-- **What is read without the ignored fields** is the entity in which the ignored fields have the
values of missing ones, if the entity is read as it is. -/
theorem Layout.read?_withoutIgnored {layout : Layout} {found : Fields}
    (h : WithoutIgnored m body found) (hread : layout.read? (.obj body) = some (.obj body)) :
    ∃ kept, layout.read? (.obj found) = some (.obj kept) ∧ ∀ key, Keyed.get? key kept
      = if ignores m.fields key then layout.initial? key else Keyed.get? key body := by
  cases layout with
  | record members =>
    obtain ⟨read, hmembers, hbody⟩ := Option.map_eq_some_iff.mp hread
    rw [Json.obj.inj hbody] at hmembers
    obtain ⟨kept, hkept, hfields⟩ := readMembers_withoutIgnored h hmembers
    refine ⟨kept, ?_, hfields⟩
    rw [Layout.read?, hkept]
    rfl
  | integer => cases hread
  | anything => exact ⟨found, rfl, h.fields⟩

end Model

end DualStore
