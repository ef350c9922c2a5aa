import Mathlib.Data.List.Forall2
import RecordStore.Layout
import RecordStore.Proofs.Action
import RecordStore.Schema.Document

namespace RecordStore

namespace Json

def mark (set : Bool) : Option Json := if set then some (.bool true) else none

structure DescribesField (json : Json) (field : FieldDef) : Prop where
  object : ∃ members, json = .object members
  name : json.get? "name" = some (.string field.name)
  type : json.get? "type" = some (.string field.type.name)
  maxLength : json.get? "max_length" = field.maxLength.map fun length => .unsigned length.toUInt64
  key : json.get? "key" = mark field.attrs.key
  indexed : json.get? "indexed" = mark field.attrs.indexed
  unique : json.get? "unique" = mark field.attrs.unique
  sequence : json.get? "sequence" = mark field.attrs.sequence

structure Describes (json : Json) (schema : Schema) : Prop where
  object : ∃ members, json = .object members
  name : json.get? "name" = some (.string schema.name)
  typeId : json.get? "type_id" = some (.signed schema.typeId.toInt64)
  groupId : json.get? "group_id" = some (.signed schema.groupId.toInt64)
  transactional : json.get? "transactional" = some (.bool schema.transactional)
  keyed : json.get? "repository_keyed" = some (.bool schema.keyed)
  fields : ∃ items, json.get? "fields" = some (.array items) ∧
    List.Forall₂ DescribesField items schema.fields

end Json

theorem FieldDef.to_json_describes (field : FieldDef) : field.toJson.DescribesField field := by
  obtain ⟨name, type, maxLength, ⟨key, indexed, unique, sequence⟩⟩ := field
  cases maxLength <;> cases key <;> cases indexed <;> cases unique <;> cases sequence <;>
    exact ⟨⟨_, rfl⟩, rfl, rfl, rfl, rfl, rfl, rfl, rfl⟩

theorem Schema.to_json_describes (schema : Schema) : schema.toJson.Describes schema := by
  refine ⟨⟨_, rfl⟩, rfl, rfl, rfl, rfl, rfl, _, rfl, ?_⟩
  induction schema.fields with
  | nil => exact .nil
  | cons field rest ih => exact .cons field.to_json_describes ih

namespace Schema

section Read

variable {json : Json} {member : String}

theorem read_flag_mark {set : Bool} (said : json.get? member = Json.mark set)
    (field : Option String) : readFlag json member field = .ok set := by
  cases set <;> rw [readFlag, said] <;> rfl

theorem read_max_length {limit : Option UInt32}
    (said : json.get? "max_length" = limit.map fun length => .unsigned length.toUInt64)
    (field : String) : readMaxLength json field = .ok limit := by
  cases limit with
  | none => rw [readMaxLength, said]; rfl
  | some length =>
    have small : ¬ length.toUInt64 > 4294967295 := by
      have bound := length.toNat_lt
      rw [GT.gt, UInt64.lt_iff_toNat_lt, UInt32.toNat_toUInt64]
      exact Nat.not_lt.mpr (Nat.le_of_lt_succ bound)
    rw [readMaxLength, said]
    dsimp only [Option.map_some]
    rw [if_neg small, UInt32.toUInt32_toUInt64]

theorem read_type {type : FieldType} (said : json.get? "type" = some (.string type.name))
    (field : String) : readType json field = .ok type := by
  rw [readType, said]
  dsimp only
  rw [FieldType.of_name]

theorem read_field {field : FieldDef} (describes : json.DescribesField field) (position : Nat) :
    readField json position = .ok field := by
  obtain ⟨members, rfl⟩ := describes.object
  rw [readField, describes.name]
  dsimp only
  rw [read_type describes.type, read_max_length describes.maxLength, read_flag_mark describes.key,
    read_flag_mark describes.indexed, read_flag_mark describes.unique,
    read_flag_mark describes.sequence]
  rfl

theorem read_items {items : List Json} {fields : List FieldDef}
    (described : List.Forall₂ Json.DescribesField items fields) (first : Nat) :
    (items.zipIdx first).mapM (fun (item, position) => readField item position) =
      Except.ok fields := by
  induction described generalizing first with
  | nil => rfl
  | cons describes _ ih =>
    rw [List.zipIdx_cons, List.mapM_cons, ih]
    dsimp only
    rw [read_field describes]
    rfl

theorem read_id_signed {id : Int16} (said : json.get? member = some (.signed id.toInt64)) :
    readId json member = .ok id := by
  have low := id.le_toInt
  have high := id.toInt_lt
  have inside : ¬ (id.toInt64 < -32768 ∨ id.toInt64 > 32767) := by
    have least : (-32768 : Int64).toInt = -32768 := rfl
    have most : (32767 : Int64).toInt = 32767 := rfl
    rw [GT.gt, Int64.lt_iff_toInt_lt, Int64.lt_iff_toInt_lt, Int16.toInt_toInt64, least, most]
    omega
  rw [readId, said]
  dsimp only [Json.int64?]
  rw [if_neg inside, Int16.toInt16_toInt64]

theorem of_json_describes {schema : Schema} (describes : json.Describes schema) :
    ofJson json = .ok schema := by
  obtain ⟨members, rfl⟩ := describes.object
  obtain ⟨items, listed, described⟩ := describes.fields
  have name : readName (.object members) = .ok schema.name := by
    rw [readName, describes.name]
  have transactional : readFlag (.object members) "transactional" none =
      .ok schema.transactional := by
    rw [readFlag, describes.transactional]
  have keyed : readFlag (.object members) "repository_keyed" none = .ok schema.keyed := by
    rw [readFlag, describes.keyed]
  have fields : readFields (.object members) = .ok schema.fields := by
    rw [readFields, listed]
    exact read_items described 0
  rw [ofJson, name, read_id_signed describes.typeId, read_id_signed describes.groupId, transactional,
    keyed, fields]
  rfl

end Read

theorem of_to_json (schema : Schema) : ofJson schema.toJson = .ok schema :=
  of_json_describes schema.to_json_describes

theorem document_round_trip :
    (∀ schema : Schema, ofJson schema.toJson = .ok schema ∧
      (ofJson schema.toJson >>= Layout.build) = Layout.build schema) ∧
    ∀ json : Json, (ofJson json >>= fun schema => ofJson schema.toJson) = ofJson json := by
  refine ⟨fun schema => ⟨of_to_json schema, ?_⟩, fun json => ?_⟩
  · rw [of_to_json]
    rfl
  · cases ofJson json with
    | error fault => rfl
    | ok schema => exact of_to_json schema

end Schema

namespace Json

def integer? : Json → Option Int
  | unsigned value => some value.toNat
  | signed value => some value.toInt
  | _ => none

def replace (json : Json) (name : String) (value : Json) : Json :=
  match json with
  | object members => .object (setMember members name value)
  | other => other

theorem get_set_same (members : List (String × Json)) (name : String) (value : Json) :
    get? (.object (setMember members name value)) name = some value := by
  have gone : (members.filter (·.1 != name)).find? (·.1 == name) = none := by
    rw [List.find?_eq_none]
    intro member kept
    simpa using (List.mem_filter.mp kept).2
  rw [get?, setMember, List.find?_append, gone]
  simp

theorem get_set_other (members : List (String × Json)) {name other : String} (value : Json)
    (differs : other ≠ name) :
    get? (.object (setMember members name value)) other = get? (.object members) other := by
  have last : [(name, value)].find? (·.1 == other) = none := by
    simpa using differs.symm
  have rest : (members.filter (·.1 != name)).find? (·.1 == other) =
      members.find? (·.1 == other) := by
    rw [List.find?_filter]
    congr 1
    funext member
    by_cases here : member.1 = other
    · simp [here, differs]
    · simp [here]
  rw [get?, get?, setMember, List.find?_append, last, rest, Option.or_none]

end Json

-- How many integers a word tells apart, 2 ^ 64.
def wordSpan : Int := 18446744073709551616

def wrapped (n : Int) : Int := if 2 * n < wordSpan then n else n - wordSpan

def wrapsFrom : Int := wordSpan - 32768

theorem wrapped_word (word : Int64) : wrapped word.toInt = word.toInt := by
  have small := word.toInt_lt
  rw [wrapped, wordSpan]
  exact if_pos (by omega)

theorem word_of_integer {value : Json} {n : Int} (literal : value.integer? = some n) :
    ∃ word, value.int64? = some word ∧ word.toInt = wrapped n := by
  cases value with
  | unsigned value =>
    cases literal
    refine ⟨value.toInt64, rfl, ?_⟩
    have small := value.toNat_lt
    have bits : value.toInt64.toInt = (value.toNat : Int).bmod (2 ^ 64) := BitVec.toInt_eq_toNat_bmod _
    rw [bits, wrapped, wordSpan, Int.bmod_def]
    split <;> split <;> omega
  | signed value =>
    cases literal
    exact ⟨value, rfl, (wrapped_word value).symm⟩
  | _ => cases literal

theorem wrapped_twice {value : Json} {n : Int} (literal : value.integer? = some n) :
    wrapped (wrapped n) = wrapped n := by
  obtain ⟨word, -, same⟩ := word_of_integer literal
  rw [← same, wrapped_word]

inductive IdMember where
  | type
  | group
deriving DecidableEq

def IdMember.name : IdMember → String
  | type => "type_id"
  | group => "group_id"

namespace Schema

def idFor (schema : Schema) : IdMember → Int16
  | .type => schema.typeId
  | .group => schema.groupId

section Ids

variable {json : Json} {member : String}

theorem read_id_absent (absent : json.get? member = none) : readId json member = .ok 0 := by
  rw [readId, absent]

theorem read_id_integer {value : Json} {n : Int} (found : json.get? member = some value)
    (literal : value.integer? = some n) : readId json member =
      if wrapped n < -32768 ∨ 32767 < wrapped n then malformed (.idOutOfRange member)
      else .ok (Int16.ofInt (wrapped n)) := by
  obtain ⟨word, read, same⟩ := word_of_integer literal
  have least : (-32768 : Int64).toInt = -32768 := rfl
  have most : (32767 : Int64).toInt = 32767 := rfl
  have cut : word.toInt16 = Int16.ofInt (wrapped n) := by
    rw [← same, ← Int64.toInt16_ofInt, Int64.ofInt_toInt]
  rw [readId, found]
  dsimp only
  rw [read]
  dsimp only
  have range : (word < -32768 ∨ word > 32767) ↔ (wrapped n < -32768 ∨ 32767 < wrapped n) := by
    rw [GT.gt, Int64.lt_iff_toInt_lt, Int64.lt_iff_toInt_lt, least, most, same]
  rw [cut]
  exact if_congr range rfl rfl

theorem read_id_ok_iff {value : Json} {n : Int} (found : json.get? member = some value)
    (literal : value.integer? = some n) {id : Int16} :
    readId json member = .ok id ↔ id.toInt = wrapped n := by
  have low := id.le_toInt
  have high := id.toInt_lt
  rw [read_id_integer found literal]
  by_cases outside : wrapped n < -32768 ∨ 32767 < wrapped n
  · rw [if_pos outside]
    refine iff_of_false nofun ?_
    omega
  · have cut : (Int16.ofInt (wrapped n)).toInt = wrapped n :=
      Int16.toInt_ofInt_of_le (by omega) (by omega)
    rw [if_neg outside, Except.ok.injEq, ← Int16.toInt_inj, cut, eq_comm]

theorem read_id_kind {value : Json} (found : json.get? member = some value)
    (other : value.integer? = none) : readId json member = malformed (.idNotInteger member) := by
  rw [readId, found]
  cases value with
  | unsigned | signed => cases other
  | _ => rfl

def Malforms {α : Type} (result : Except Fault α) : Prop :=
  FailsOnly (fun fault => ∃ flaw, fault = .badDocument flaw) result

theorem malforms_flaw {α : Type} (flaw : DocumentFlaw) :
    Malforms (malformed flaw : Except Fault α) := fails_error ⟨flaw, rfl⟩

theorem malforms_id (json : Json) (member : String) : Malforms (readId json member) := by
  rw [readId]
  split
  · exact fails_ok _
  split
  · exact malforms_flaw _
  split
  · exact malforms_flaw _
  · exact fails_ok _

theorem malforms_flag (json : Json) (member : String) (field : Option String) :
    Malforms (readFlag json member field) := by
  rw [readFlag]
  split
  · exact fails_ok _
  · exact fails_ok _
  · exact malforms_flaw _

theorem malforms_type (json : Json) (field : String) : Malforms (readType json field) := by
  rw [readType]
  split
  · split
    · exact fails_ok _
    · exact malforms_flaw _
  · exact malforms_flaw _

theorem malforms_max_length (json : Json) (field : String) :
    Malforms (readMaxLength json field) := by
  rw [readMaxLength]
  split
  · exact fails_ok _
  · split
    · exact malforms_flaw _
    · exact fails_ok _
  · exact malforms_flaw _

theorem malforms_field (json : Json) (position : Nat) : Malforms (readField json position) := by
  rw [readField.eq_def]
  split
  · split
    · refine fails_bind (malforms_type _ _) fun _ _ => ?_
      refine fails_bind (malforms_max_length _ _) fun _ _ => ?_
      iterate 4 refine fails_bind (malforms_flag _ _ _) fun _ _ => ?_
      exact fails_ok _
    · exact malforms_flaw _
  · exact malforms_flaw _

theorem malforms_json (json : Json) : Malforms (ofJson json) := by
  rw [ofJson.eq_def]
  split
  · refine fails_bind ?_ fun _ _ => ?_
    · rw [readName]
      split
      · exact fails_ok _
      · exact fails_ok _
      · exact malforms_flaw _
    iterate 2 refine fails_bind (malforms_id _ _) fun _ _ => ?_
    iterate 2 refine fails_bind (malforms_flag _ _ _) fun _ _ => ?_
    refine fails_bind ?_ fun _ _ => fails_ok _
    rw [readFields]
    split
    · exact fails_map fun _ _ => malforms_field _ _
    · exact malforms_flaw _
  · exact malforms_flaw _

theorem of_json_ids {schema : Schema} (accepted : ofJson json = .ok schema) (which : IdMember) :
    readId json which.name = .ok (schema.idFor which) := by
  rw [ofJson.eq_def] at accepted
  split at accepted
  · obtain ⟨name, -, accepted⟩ := except_bind_ok.mp accepted
    obtain ⟨typeId, type, accepted⟩ := except_bind_ok.mp accepted
    obtain ⟨groupId, group, accepted⟩ := except_bind_ok.mp accepted
    obtain ⟨transactional, -, accepted⟩ := except_bind_ok.mp accepted
    obtain ⟨keyed, -, accepted⟩ := except_bind_ok.mp accepted
    obtain ⟨fields, -, accepted⟩ := except_bind_ok.mp accepted
    cases accepted
    cases which with
    | type => exact type
    | group => exact group
  · cases accepted

theorem of_json_refuses {which : IdMember}
    (unread : ∀ id, readId json which.name ≠ .ok id) :
    ∃ flaw, ofJson json = .error (.badDocument flaw) := by
  cases read : ofJson json with
  | ok schema => exact absurd (of_json_ids read which) (unread _)
  | error fault =>
    obtain ⟨flaw, rfl⟩ := malforms_json json fault read
    exact ⟨flaw, rfl⟩

theorem of_json_congr {members others : List (String × Json)} {which : IdMember}
    (same : ∀ name, name ≠ which.name →
      Json.get? (.object others) name = Json.get? (.object members) name)
    (ids : readId (.object others) which.name = readId (.object members) which.name) :
    ofJson (.object others) = ofJson (.object members) := by
  have id (member : String) :
      readId (.object others) member = readId (.object members) member := by
    by_cases here : member = which.name
    · rw [here, ids]
    · rw [readId, readId, same member here]
  have flag (member : String) (field : Option String) (differs : member ≠ which.name) :
      readFlag (.object others) member field = readFlag (.object members) member field := by
    rw [readFlag, readFlag, same member differs]
  have name : readName (.object others) = readName (.object members) := by
    rw [readName, readName, same "name" (by cases which <;> decide)]
  have fields : readFields (.object others) = readFields (.object members) := by
    rw [readFields, readFields, same "fields" (by cases which <;> decide)]
  rw [ofJson, ofJson, name, id, id, flag "transactional" none (by cases which <;> decide),
    flag "repository_keyed" none (by cases which <;> decide), fields]

theorem of_json_replaced {which : IdMember} {value fresh : Json} {n : Int}
    (found : json.get? which.name = some value) (literal : value.integer? = some n)
    (again : fresh.integer? = some (wrapped n)) :
    ofJson (json.replace which.name fresh) = ofJson json := by
  cases json with
  | object members =>
    refine of_json_congr (fun name differs => Json.get_set_other members fresh differs) ?_
    rw [read_id_integer found literal, read_id_integer (Json.get_set_same _ _ _) again,
      wrapped_twice literal]
  | _ => cases found

theorem wrapped_small {id : Int16} {n : Int} (same : id.toInt = wrapped n)
    (below : n < wrapsFrom) : id.toInt = n := by
  have low := id.le_toInt
  rw [wrapped, wordSpan] at same
  rw [wrapsFrom, wordSpan] at below
  split at same <;> omega

theorem wrapped_large {n : Int} (above : wrapsFrom ≤ n) : wrapped n = n - wordSpan := by
  rw [wrapsFrom, wordSpan] at above
  rw [wrapped, wordSpan]
  exact if_neg (by omega)

theorem integer_small {value : Json} {n : Int} (literal : value.integer? = some n) :
    n < wordSpan := by
  rw [wordSpan]
  cases value with
  | unsigned value =>
    cases literal
    have small := value.toNat_lt
    omega
  | signed value =>
    cases literal
    have small := value.toInt_lt
    omega
  | _ => cases literal

-- What a document gives for each of its ids. The one flaw is an integer within 32768 of 2 ^ 64: it
-- is read as if the negative id that it wraps around to stood there.
theorem id_read_unless_wrapped (json : Json) (which : IdMember) :
    (∀ schema, ofJson json = .ok schema →
      (json.get? which.name = none ∧ (schema.idFor which).toInt = 0) ∨
      ∃ value n, json.get? which.name = some value ∧ value.integer? = some n ∧
        ((schema.idFor which).toInt = n ↔ n < wrapsFrom)) ∧
    ∀ value n, json.get? which.name = some value → value.integer? = some n →
      (n < wrapsFrom → (n < -32768 ∨ 32767 < n) →
        ∃ fault, ofJson json = .error fault ∧ fault.kind = .invalidArgument) ∧
      (wrapsFrom ≤ n →
        ofJson json = ofJson (json.replace which.name (.signed (Int64.ofInt (n - wordSpan))))) := by
  constructor
  · intro schema accepted
    have read := of_json_ids accepted which
    cases found : json.get? which.name with
    | none =>
      have zero := Except.ok.inj ((read_id_absent found).symm.trans read)
      rw [← zero]
      exact .inl ⟨rfl, rfl⟩
    | some value =>
      cases literal : value.integer? with
      | none =>
        rw [read_id_kind found literal] at read
        cases read
      | some n =>
        have same := (read_id_ok_iff found literal).mp read
        refine .inr ⟨value, n, rfl, literal, fun exact => ?_, wrapped_small same⟩
        by_contra above
        rw [wrapped_large (Int.not_lt.mp above), wordSpan] at same
        omega
  · intro value n found literal
    constructor
    · intro below outside
      obtain ⟨flaw, refused⟩ : ∃ flaw, ofJson json = .error (.badDocument flaw) := by
        apply of_json_refuses
        intro id read
        have same := wrapped_small ((read_id_ok_iff found literal).mp read) below
        have low := id.le_toInt
        have high := id.toInt_lt
        omega
      exact ⟨_, refused, rfl⟩
    · intro above
      have small := integer_small literal
      have written : (Int64.ofInt (n - wordSpan)).toInt = n - wordSpan := by
        rw [wrapsFrom, wordSpan] at above
        rw [wordSpan] at small ⊢
        exact Int64.toInt_ofInt_of_le (by omega) (by omega)
      symm
      apply of_json_replaced found literal
      rw [wrapped_large above, Json.integer?, written]

end Ids

def wrappedDocument : Json :=
  .object [("type_id", .unsigned 18446744073709551615), ("fields", .array [])]

theorem wrapped_id_accepted :
    wrappedDocument.get? "type_id" = some (.unsigned 18446744073709551615) ∧
      ofJson wrappedDocument = .ok { typeId := -1 } := ⟨rfl, rfl⟩

theorem wrapped_id_read :
    ofJson wrappedDocument = ofJson (wrappedDocument.replace "type_id" (.signed (-1))) ∧
      ∃ fault, ofJson (wrappedDocument.replace "group_id" (.unsigned 70000)) = .error fault ∧
        fault.kind = .invalidArgument := by
  obtain ⟨-, wraps⟩ := id_read_unless_wrapped wrappedDocument .type
  obtain ⟨-, far⟩ :=
    id_read_unless_wrapped (wrappedDocument.replace "group_id" (.unsigned 70000)) .group
  exact ⟨(wraps _ _ rfl rfl).2 (by decide), (far _ _ rfl rfl).1 (by decide) (by decide)⟩

end Schema

end RecordStore
