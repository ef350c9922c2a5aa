import RecordStore.Proofs.Document
import Mathlib.Algebra.Group.Int.Defs
import Mathlib.Algebra.Group.Nat.Defs

namespace RecordStore

namespace Json

def typeNames : List (String × FieldType) :=
  [("int32", .int32), ("int64", .int64), ("int16", .int16), ("bool", .bool), ("char16", .char16),
    ("fixed_string", .fixedString), ("var_string", .varString)]

def schemaMembers : List String :=
  ["name", "type_id", "group_id", "transactional", "repository_keyed", "fields"]

def fieldMembers : List String :=
  ["name", "type", "max_length", "key", "indexed", "unique", "sequence"]

def Says {α : Type} (json : Json) (member : String) (default : α) (means : Json → α → Prop)
    (value : α) : Prop :=
  match json.get? member with
  | none => value = default
  | some said => means said value

def IsFlag (said : Json) (set : Bool) : Prop := said = .bool set

def IsText (said : Json) (text : String) : Prop := said = .string text

def IsId (said : Json) (id : Int16) : Prop := said.integer? = some id.toInt

def IsLimit (said : Json) (limit : Option UInt32) : Prop :=
  ∃ (n : UInt64) (m : UInt32), said = .unsigned n ∧ limit = some m ∧ m.toNat = n.toNat

structure StatesField (json : Json) (field : FieldDef) : Prop where
  object : ∃ members, json = .object members
  name : json.get? "name" = some (.string field.name)
  type : ∃ text, json.get? "type" = some (.string text) ∧ (text, field.type) ∈ typeNames
  maxLength : json.Says "max_length" none IsLimit field.maxLength
  key : json.Says "key" false IsFlag field.attrs.key
  indexed : json.Says "indexed" false IsFlag field.attrs.indexed
  unique : json.Says "unique" false IsFlag field.attrs.unique
  sequence : json.Says "sequence" false IsFlag field.attrs.sequence

structure States (json : Json) (schema : Schema) : Prop where
  object : ∃ members, json = .object members
  name : json.Says "name" "" IsText schema.name
  typeId : json.Says "type_id" 0 IsId schema.typeId
  groupId : json.Says "group_id" 0 IsId schema.groupId
  transactional : json.Says "transactional" false IsFlag schema.transactional
  keyed : json.Says "repository_keyed" false IsFlag schema.keyed
  fields : ∃ items, json.get? "fields" = some (.array items) ∧
    List.Forall₂ StatesField items schema.fields

def Allows (json : Json) (member : String) (kind : Json → Prop) : Prop :=
  ∀ said, json.get? member = some said → kind said

structure FieldShaped (json : Json) : Prop where
  object : ∃ members, json = .object members
  name : ∃ text, json.get? "name" = some (.string text)
  type : ∃ text, json.get? "type" = some (.string text) ∧ text ∈ typeNames.map Prod.fst
  maxLength : json.Allows "max_length" fun said =>
    ∃ n : UInt64, said = .unsigned n ∧ n.toNat ≤ 2 ^ 32 - 1
  flags : ∀ member ∈ ["key", "indexed", "unique", "sequence"],
    json.Allows member fun said => ∃ set, said = .bool set

structure Shaped (json : Json) : Prop where
  object : ∃ members, json = .object members
  name : json.Allows "name" fun said => ∃ text, said = .string text
  ids : ∀ member ∈ ["type_id", "group_id"], json.Allows member fun said =>
    ∃ n, said.integer? = some n ∧ -32768 ≤ n ∧ n ≤ 32767
  flags : ∀ member ∈ ["transactional", "repository_keyed"],
    json.Allows member fun said => ∃ set, said = .bool set
  fields : ∃ items, json.get? "fields" = some (.array items) ∧ ∀ item ∈ items, item.FieldShaped

section Says

variable {α : Type} {json : Json} {member : String} {default : α} {means : Json → α → Prop}

theorem says_exists :
    (∃ value, json.Says member default means value) ↔
      json.Allows member fun said => ∃ value, means said value := by
  cases found : json.get? member with
  | none => simp [Says, Allows, found]
  | some said => simp [Says, Allows, found]

end Says

theorem short_word {n : UInt64} (small : n.toNat ≤ 2 ^ 32 - 1) :
    n.toUInt32.toNat = n.toNat := by
  rw [UInt64.toNat_toUInt32]
  exact Nat.mod_eq_of_lt (by omega)

theorem limit_exists (said : Json) : (∃ limit, said.IsLimit limit) ↔
    ∃ n : UInt64, said = .unsigned n ∧ n.toNat ≤ 2 ^ 32 - 1 := by
  constructor
  · intro shown
    obtain ⟨limit, n, m, same, -, whole⟩ := shown
    have small := m.toNat_lt
    exact ⟨n, same, by omega⟩
  · intro shown
    obtain ⟨n, same, small⟩ := shown
    exact ⟨some n.toUInt32, n, n.toUInt32, same, rfl, short_word small⟩

theorem id_exists (said : Json) : (∃ id, said.IsId id) ↔
    ∃ n, said.integer? = some n ∧ -32768 ≤ n ∧ n ≤ 32767 := by
  constructor
  · intro shown
    obtain ⟨id, same⟩ := shown
    have low := id.le_toInt
    have high := id.toInt_lt
    exact ⟨id.toInt, same, by omega, by omega⟩
  · intro shown
    obtain ⟨n, same, low, high⟩ := shown
    refine ⟨Int16.ofInt n, ?_⟩
    rw [IsId, same, Int16.toInt_ofInt_of_le (by omega) (by omega)]

end Json

namespace Schema

section Read

variable {json : Json} {member : String}

theorem read_flag_iff {field : Option String} {set : Bool} :
    readFlag json member field = .ok set ↔ json.Says member false Json.IsFlag set := by
  rw [readFlag, Json.Says]
  cases json.get? member with
  | none => simp [eq_comm]
  | some said => cases said <;> simp [malformed, Json.IsFlag]

theorem read_name_iff {text : String} :
    readName json = .ok text ↔ json.Says "name" "" Json.IsText text := by
  rw [readName, Json.Says]
  cases json.get? "name" with
  | none => simp [eq_comm]
  | some said => cases said <;> simp [malformed, Json.IsText]

theorem type_name_iff {text : String} {type : FieldType} :
    FieldType.ofName? text = some type ↔ (text, type) ∈ Json.typeNames := by
  constructor
  · intro found
    have named := List.find?_some found
    rw [beq_iff_eq] at named
    rw [← named]
    cases type <;> decide
  · intro listed
    have named : text = type.name := by
      simp only [Json.typeNames, List.mem_cons, Prod.mk.injEq, List.not_mem_nil, or_false] at listed
      rcases listed with ⟨rfl, rfl⟩ | ⟨rfl, rfl⟩ | ⟨rfl, rfl⟩ | ⟨rfl, rfl⟩ | ⟨rfl, rfl⟩ |
        ⟨rfl, rfl⟩ | ⟨rfl, rfl⟩ <;> rfl
    rw [named]
    exact FieldType.of_name type

theorem read_type_iff {field : String} {type : FieldType} :
    readType json field = .ok type ↔
      ∃ text, json.get? "type" = some (.string text) ∧ (text, type) ∈ Json.typeNames := by
  rw [readType]
  cases json.get? "type" with
  | none => simp [malformed]
  | some said =>
    cases said with
    | string text =>
      simp only [Option.some.injEq, Json.string.injEq, exists_eq_left', ← type_name_iff]
      cases FieldType.ofName? text <;> simp [malformed]
    | _ => simp [malformed]

theorem read_max_length_iff {field : String} {limit : Option UInt32} :
    readMaxLength json field = .ok limit ↔ json.Says "max_length" none Json.IsLimit limit := by
  rw [readMaxLength, Json.Says]
  cases json.get? "max_length" with
  | none => simp [eq_comm]
  | some said =>
    cases said with
    | unsigned n =>
      dsimp only
      have most : (4294967295 : UInt64).toNat = 4294967295 := rfl
      by_cases large : n > 4294967295
      · rw [if_pos large]
        rw [GT.gt, UInt64.lt_iff_toNat_lt, most] at large
        refine iff_of_false (by rintro ⟨⟩) fun shown => ?_
        obtain ⟨_, m, ⟨⟩, -, whole⟩ := shown
        have small := m.toNat_lt
        omega
      · rw [if_neg large, Except.ok.injEq]
        rw [GT.gt, UInt64.lt_iff_toNat_lt, most] at large
        have cut : n.toUInt32.toNat = n.toNat := Json.short_word (by omega)
        constructor
        · rintro rfl
          exact ⟨n, n.toUInt32, rfl, rfl, cut⟩
        · rintro ⟨_, m, ⟨⟩, rfl, whole⟩
          rw [UInt32.toNat_inj.mp (cut.trans whole.symm)]
    | _ => simp [malformed, Json.IsLimit]

theorem read_field_iff {position : Nat} {field : FieldDef} :
    readField json position = .ok field ↔ json.StatesField field := by
  constructor
  · intro read
    rw [readField.eq_def] at read
    split at read
    · rename_i members
      split at read
      · rename_i name named
        obtain ⟨type, typed, read⟩ := except_bind_ok.mp read
        obtain ⟨maxLength, limited, read⟩ := except_bind_ok.mp read
        obtain ⟨key, keyed, read⟩ := except_bind_ok.mp read
        obtain ⟨indexed, listed, read⟩ := except_bind_ok.mp read
        obtain ⟨unique, alone, read⟩ := except_bind_ok.mp read
        obtain ⟨sequence, counted, read⟩ := except_bind_ok.mp read
        cases read
        exact ⟨⟨members, rfl⟩, named, read_type_iff.mp typed, read_max_length_iff.mp limited,
          read_flag_iff.mp keyed, read_flag_iff.mp listed, read_flag_iff.mp alone,
          read_flag_iff.mp counted⟩
      · cases read
    · cases read
  · intro states
    obtain ⟨members, rfl⟩ := states.object
    rw [readField, states.name]
    dsimp only
    rw [read_type_iff.mpr states.type, read_max_length_iff.mpr states.maxLength,
      read_flag_iff.mpr states.key, read_flag_iff.mpr states.indexed,
      read_flag_iff.mpr states.unique, read_flag_iff.mpr states.sequence]
    rfl

theorem read_items_iff {items : List Json} {fields : List FieldDef} (first : Nat) :
    (items.zipIdx first).mapM (fun (item, position) => readField item position) = Except.ok fields ↔
      List.Forall₂ Json.StatesField items fields := by
  induction items generalizing fields first with
  | nil =>
    rw [List.zipIdx_nil, List.mapM_nil, List.forall₂_nil_left_iff, eq_comm]
    exact ⟨Except.ok.inj, congrArg Except.ok⟩
  | cons item rest ih =>
    rw [List.zipIdx_cons, List.mapM_cons, except_bind_ok]
    constructor
    · intro shown
      obtain ⟨field, read, later⟩ := shown
      obtain ⟨others, listed, made⟩ := except_bind_ok.mp later
      cases made
      exact .cons (read_field_iff.mp read) ((ih _).mp listed)
    · intro states
      cases states with
      | cons head tail =>
        exact ⟨_, read_field_iff.mpr head, except_bind_ok.mpr ⟨_, (ih _).mpr tail, rfl⟩⟩

theorem read_fields_iff {fields : List FieldDef} : readFields json = .ok fields ↔
    ∃ items, json.get? "fields" = some (.array items) ∧
      List.Forall₂ Json.StatesField items fields := by
  rw [readFields]
  cases json.get? "fields" with
  | none => simp [malformed]
  | some said =>
    cases said with
    | array items =>
      simp only [Option.some.injEq, Json.array.injEq, exists_eq_left']
      exact read_items_iff 0
    | _ => simp [malformed]

-- The ids that a document gives as integers are words, so none of them wraps.
def WordIds (json : Json) : Prop :=
  ∀ (which : IdMember) (value : Json) (n : Int), json.get? which.name = some value →
    value.integer? = some n → -2 ^ 63 ≤ n ∧ n < 2 ^ 63

theorem read_id_iff {which : IdMember} (words : WordIds json) {id : Int16} :
    readId json which.name = .ok id ↔ json.Says which.name 0 Json.IsId id := by
  rw [Json.Says]
  cases found : json.get? which.name with
  | none =>
    rw [read_id_absent found]
    simp [eq_comm]
  | some value =>
    cases literal : value.integer? with
    | none =>
      rw [read_id_kind found literal]
      simp [malformed, Json.IsId, literal]
    | some n =>
      have small := (words which value n found literal).2
      have same : wrapped n = n := if_pos (by rw [wordSpan]; omega)
      rw [read_id_ok_iff found literal, same]
      simp [Json.IsId, literal, eq_comm]

theorem of_json_iff (words : WordIds json) {schema : Schema} :
    ofJson json = .ok schema ↔ json.States schema := by
  constructor
  · intro read
    have typeId := of_json_ids read .type
    have groupId := of_json_ids read .group
    rw [ofJson.eq_def] at read
    split at read
    · rename_i members
      obtain ⟨name, named, read⟩ := except_bind_ok.mp read
      obtain ⟨_, -, read⟩ := except_bind_ok.mp read
      obtain ⟨_, -, read⟩ := except_bind_ok.mp read
      obtain ⟨transactional, transacts, read⟩ := except_bind_ok.mp read
      obtain ⟨keyed, keys, read⟩ := except_bind_ok.mp read
      obtain ⟨fields, listed, read⟩ := except_bind_ok.mp read
      cases read
      exact ⟨⟨members, rfl⟩, read_name_iff.mp named, (read_id_iff words).mp typeId,
        (read_id_iff words).mp groupId, read_flag_iff.mp transacts, read_flag_iff.mp keys,
        read_fields_iff.mp listed⟩
    · cases read
  · intro states
    obtain ⟨members, rfl⟩ := states.object
    have typeId : readId (.object members) "type_id" = .ok schema.typeId :=
      (@read_id_iff _ .type words _).mpr states.typeId
    have groupId : readId (.object members) "group_id" = .ok schema.groupId :=
      (@read_id_iff _ .group words _).mpr states.groupId
    rw [ofJson, read_name_iff.mpr states.name, typeId, groupId,
      read_flag_iff.mpr states.transactional, read_flag_iff.mpr states.keyed,
      read_fields_iff.mpr states.fields]
    rfl

theorem read_fields_alike {items others : List Json}
    (alike : List.Forall₂ (fun one other => ∀ position, readField one position =
      readField other position) items others) (first : Nat) :
    (items.zipIdx first).mapM (fun (item, position) => readField item position) =
      (others.zipIdx first).mapM fun (item, position) => readField item position := by
  induction alike generalizing first with
  | nil => rfl
  | cons same _ ih =>
    rw [List.zipIdx_cons, List.zipIdx_cons, List.mapM_cons, List.mapM_cons, ih]
    dsimp only
    rw [same]

theorem of_json_alike {other : Json} (object : ∃ members, json = .object members)
    (also : ∃ members, other = .object members)
    (same : ∀ name ∈ Json.schemaMembers, name ≠ "fields" → other.get? name = json.get? name)
    (fields : readFields other = readFields json) : ofJson other = ofJson json := by
  obtain ⟨members, rfl⟩ := object
  obtain ⟨others, rfl⟩ := also
  have name : readName (.object others) = readName (.object members) := by
    rw [readName, readName, same "name" (by decide) (by decide)]
  have id (member : String) (listed : member ∈ Json.schemaMembers) (differs : member ≠ "fields") :
      readId (.object others) member = readId (.object members) member := by
    rw [readId, readId, same member listed differs]
  have flag (member : String) (listed : member ∈ Json.schemaMembers) (differs : member ≠ "fields") :
      readFlag (.object others) member none = readFlag (.object members) member none := by
    rw [readFlag, readFlag, same member listed differs]
  rw [ofJson, ofJson, name, id "type_id" (by decide) (by decide),
    id "group_id" (by decide) (by decide), flag "transactional" (by decide) (by decide),
    flag "repository_keyed" (by decide) (by decide), fields]

theorem read_field_alike {members others : List (String × Json)}
    (same : ∀ name ∈ Json.fieldMembers,
      Json.get? (.object others) name = Json.get? (.object members) name) (position : Nat) :
    readField (.object others) position = readField (.object members) position := by
  have type (field : String) : readType (.object others) field = readType (.object members) field := by
    rw [readType, readType, same "type" (by decide)]
  have limit (field : String) :
      readMaxLength (.object others) field = readMaxLength (.object members) field := by
    rw [readMaxLength, readMaxLength, same "max_length" (by decide)]
  have flag (member : String) (listed : member ∈ Json.fieldMembers) (field : Option String) :
      readFlag (.object others) member field = readFlag (.object members) member field := by
    rw [readFlag, readFlag, same member listed]
  rw [readField, readField, same "name" (by decide)]
  simp only [type, limit, flag "key" (by decide), flag "indexed" (by decide),
    flag "unique" (by decide), flag "sequence" (by decide)]

end Read

end Schema

namespace Json

variable {json : Json}

theorem field_shaped_iff : json.FieldShaped ↔ ∃ field, json.StatesField field := by
  constructor
  · intro shaped
    obtain ⟨name, named⟩ := shaped.name
    obtain ⟨text, written, known⟩ := shaped.type
    obtain ⟨⟨_, type⟩, listed, rfl⟩ := List.mem_map.mp known
    obtain ⟨maxLength, limits⟩ := says_exists.mpr fun said found =>
      (limit_exists said).mpr (shaped.maxLength said found)
    obtain ⟨key, keyed⟩ := says_exists.mpr (shaped.flags "key" (by decide))
    obtain ⟨indexed, lists⟩ := says_exists.mpr (shaped.flags "indexed" (by decide))
    obtain ⟨unique, alone⟩ := says_exists.mpr (shaped.flags "unique" (by decide))
    obtain ⟨sequence, counts⟩ := says_exists.mpr (shaped.flags "sequence" (by decide))
    exact ⟨{ name, type, maxLength, attrs := { key, indexed, unique, sequence } }, shaped.object,
      named, ⟨_, written, listed⟩, limits, keyed, lists, alone, counts⟩
  · intro shown
    obtain ⟨field, states⟩ := shown
    obtain ⟨text, written, listed⟩ := states.type
    refine ⟨states.object, ⟨_, states.name⟩, ⟨text, written, List.mem_map.mpr ⟨_, listed, rfl⟩⟩,
      fun said found => ?_, fun member among => ?_⟩
    · exact (limit_exists said).mp (says_exists.mp ⟨_, states.maxLength⟩ said found)
    · simp only [List.mem_cons, List.not_mem_nil, or_false] at among
      rcases among with rfl | rfl | rfl | rfl
      · exact says_exists.mp ⟨_, states.key⟩
      · exact says_exists.mp ⟨_, states.indexed⟩
      · exact says_exists.mp ⟨_, states.unique⟩
      · exact says_exists.mp ⟨_, states.sequence⟩

theorem items_shaped_iff {items : List Json} :
    (∀ item ∈ items, item.FieldShaped) ↔ ∃ fields, List.Forall₂ StatesField items fields := by
  induction items with
  | nil => exact ⟨fun _ => ⟨[], .nil⟩, fun _ => nofun⟩
  | cons item rest ih =>
    rw [List.forall_mem_cons, ih, field_shaped_iff]
    constructor
    · rintro ⟨⟨field, states⟩, fields, others⟩
      exact ⟨field :: fields, .cons states others⟩
    · rintro ⟨_, states⟩
      cases states with
      | cons head tail => exact ⟨⟨_, head⟩, _, tail⟩

theorem shaped_iff : json.Shaped ↔ ∃ schema, json.States schema := by
  constructor
  · intro shaped
    obtain ⟨name, named⟩ := says_exists.mpr shaped.name
    obtain ⟨typeId, typed⟩ := says_exists.mpr fun said found =>
      (id_exists said).mpr (shaped.ids "type_id" (by decide) said found)
    obtain ⟨groupId, grouped⟩ := says_exists.mpr fun said found =>
      (id_exists said).mpr (shaped.ids "group_id" (by decide) said found)
    obtain ⟨transactional, transacts⟩ := says_exists.mpr (shaped.flags "transactional" (by decide))
    obtain ⟨keyed, keys⟩ := says_exists.mpr (shaped.flags "repository_keyed" (by decide))
    obtain ⟨items, listed, each⟩ := shaped.fields
    obtain ⟨fields, states⟩ := items_shaped_iff.mp each
    exact ⟨{ name, typeId, groupId, transactional, keyed, fields }, shaped.object, named, typed,
      grouped, transacts, keys, items, listed, states⟩
  · intro shown
    obtain ⟨schema, states⟩ := shown
    obtain ⟨items, listed, each⟩ := states.fields
    refine ⟨states.object, says_exists.mp ⟨_, states.name⟩, fun member among said found => ?_,
      fun member among => ?_, items, listed, items_shaped_iff.mpr ⟨_, each⟩⟩
    · simp only [List.mem_cons, List.not_mem_nil, or_false] at among
      rcases among with rfl | rfl
      · exact (id_exists said).mp (says_exists.mp ⟨_, states.typeId⟩ said found)
      · exact (id_exists said).mp (says_exists.mp ⟨_, states.groupId⟩ said found)
    · simp only [List.mem_cons, List.not_mem_nil, or_false] at among
      rcases among with rfl | rfl
      · exact says_exists.mp ⟨_, states.transactional⟩
      · exact says_exists.mp ⟨_, states.keyed⟩

end Json

namespace Schema

variable {json : Json}

theorem of_json_beside {name : String} (unknown : name ∉ Json.schemaMembers) (value : Json) :
    ofJson (json.replace name value) = ofJson json := by
  cases json with
  | object members =>
    have same (member : String) (known : member ∈ Json.schemaMembers) :
        Json.get? (.object (Json.setMember members name value)) member =
          Json.get? (.object members) member := by
      apply Json.get_set_other
      rintro rfl
      exact unknown known
    refine of_json_alike ⟨members, rfl⟩ ⟨_, rfl⟩ (fun member known _ => same member known) ?_
    rw [Json.replace, readFields, readFields, same "fields" (by decide)]
  | _ => rfl

theorem set_alike {α : Type} {alike : α → α → Prop} (refl : ∀ a, alike a a) {items : List α} {i : Nat}
    {old fresh : α} (found : items[i]? = some old) (same : alike fresh old) :
    List.Forall₂ alike (items.set i fresh) items := by
  induction items generalizing i with
  | nil => cases found
  | cons item rest ih =>
    cases i with
    | zero =>
      cases found
      exact .cons same (List.forall₂_same.mpr fun a _ => refl a)
    | succ i => exact .cons (refl item) (ih found)

theorem of_json_field_beside {items : List Json} {i : Nat} {members : List (String × Json)}
    (listed : json.get? "fields" = some (.array items)) (found : items[i]? = some (.object members))
    {name : String} (unknown : name ∉ Json.fieldMembers) (value : Json) :
    ofJson (json.replace "fields"
      (.array (items.set i (.object (Json.setMember members name value))))) = ofJson json := by
  cases json with
  | object outer =>
    have same (position : Nat) : readField (.object (Json.setMember members name value)) position =
        readField (.object members) position := by
      refine read_field_alike (fun member known => ?_) position
      apply Json.get_set_other
      rintro rfl
      exact unknown known
    refine of_json_alike ⟨outer, rfl⟩ ⟨_, rfl⟩ (fun member _ differs => ?_) ?_
    · exact Json.get_set_other _ _ differs
    · rw [Json.replace, readFields, readFields, listed, Json.get_set_same]
      exact read_fields_alike (set_alike (fun _ _ => rfl) found same) 0
  | _ => cases listed

-- A document is read if it has the shape of one, and as the schema that it says. The ids are integers
-- of 64 bits here, as an id beyond that is not read as it is written.
theorem documents_read_by_shape (json : Json) (words : WordIds json) :
    ((∃ schema, ofJson json = .ok schema) ↔ json.Shaped) ∧
    (∀ schema, ofJson json = .ok schema ↔ json.States schema) ∧
    (∀ fault, ofJson json = .error fault → fault.kind = .invalidArgument) ∧
    (∀ (name : String) (value : Json), name ∉ Json.schemaMembers →
      ofJson (json.replace name value) = ofJson json) ∧
    ∀ (items : List Json) (i : Nat) (members : List (String × Json)) (name : String) (value : Json),
      json.get? "fields" = some (.array items) → items[i]? = some (.object members) →
      name ∉ Json.fieldMembers → ofJson (json.replace "fields"
        (.array (items.set i (.object (Json.setMember members name value))))) = ofJson json := by
  refine ⟨?_, fun schema => of_json_iff words, fun fault failed => ?_,
    fun name value unknown => of_json_beside unknown value,
    fun items i members name value listed found unknown =>
      of_json_field_beside listed found unknown value⟩
  · rw [Json.shaped_iff]
    exact exists_congr fun schema => of_json_iff words
  · obtain ⟨flaw, rfl⟩ := malforms_json json fault failed
    rfl

def noteDocument : Json :=
  .object [("type_id", .signed (-5)), ("remark", .null),
    ("fields", .array [.object [("name", .string "text"), ("type", .string "fixed_string"),
      ("max_length", .unsigned 8), ("unit", .string "byte")]])]

def noteSchema : Schema where
  typeId := -5
  fields := [{ name := "text", type := .fixedString, maxLength := some 8 }]

def unnamedDocument : Json := noteDocument.replace "name" .null

theorem note_document_read :
    WordIds noteDocument ∧ noteDocument.Shaped ∧ noteDocument.States noteSchema ∧
      ofJson (noteDocument.replace "remark" (.bool true)) = ofJson noteDocument ∧
      WordIds unnamedDocument ∧ ¬ unnamedDocument.Shaped ∧
      ∃ fault, ofJson unnamedDocument = .error fault ∧ fault.kind = .invalidArgument := by
  have words : WordIds noteDocument := by
    intro which value n found literal
    cases which with
    | type =>
      cases found
      cases literal
      decide
    | group => cases found
  have others : WordIds unnamedDocument := by
    intro which value n found literal
    cases which with
    | type => exact words .type value n found literal
    | group => exact words .group value n found literal
  have read : ofJson noteDocument = .ok noteSchema := rfl
  have refused : ofJson unnamedDocument = .error (.badDocument .nameNotString) := rfl
  obtain ⟨shaped, states, -, beside, -⟩ := documents_read_by_shape noteDocument words
  obtain ⟨unshaped, -, kind, -⟩ := documents_read_by_shape unnamedDocument others
  refine ⟨words, shaped.mp ⟨_, read⟩, (states _).mp read, beside "remark" _ (by decide), others, ?_, _,
    refused, kind _ refused⟩
  intro shape
  obtain ⟨schema, wrong⟩ := unshaped.mpr shape
  cases refused.symm.trans wrong

end Schema

end RecordStore
