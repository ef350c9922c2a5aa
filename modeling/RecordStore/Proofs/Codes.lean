import RecordStore.Proofs.RoundTrip
import RecordStore.Workload

namespace RecordStore.Workload

def orderLayout : Layout where
  name := "Order"
  typeId := 7
  groupId := 1
  transactional := true
  keyed := true
  stride := 47
  fields := [
    { name := "id", type := .int64, offset := 8, length := 8, attrs := { key := true } },
    { name := "qty", type := .int32, offset := 16, length := 4, attrs := {} },
    { name := "price", type := .int64, offset := 20, length := 8, attrs := { indexed := true } },
    { name := "code", type := .fixedString, offset := 28, length := 12,
      attrs := { indexed := true, unique := true } },
    { name := "side", type := .char16, offset := 40, length := 2, attrs := {} },
    { name := "active", type := .bool, offset := 42, length := 1, attrs := {} },
    { name := "version", type := .int32, offset := 43, length := 4,
      attrs := { sequence := true } }]

theorem order_built : Layout.build orderSchema = .ok orderLayout := by decide +kernel

theorem order_packed : orderLayout.Packed :=
  (Layout.build_packed order_built (by decide)).1

def orderIds : OrderFields := ⟨1, 2, 3, 4, 5, 6⟩

theorem order_fields : orderFields orderLayout = .ok orderIds := by rfl

theorem utf8_injective {text other : String} (same : utf8 text = utf8 other) : text = other :=
  String.toByteArray_inj.mp (ByteArray.ext (Array.toList_inj.mp same))

theorem utf8_ascii {chars : List Char} (ascii : ∀ char ∈ chars, char.toNat ≤ 127) :
    utf8 (String.ofList chars) = chars.map Char.toUInt8 := by
  rw [utf8, String.toByteArray_ofList]
  induction chars with
  | nil => rfl
  | cons char rest ih =>
    obtain ⟨small, others⟩ := List.forall_mem_cons.mp ascii
    have single := String.utf8EncodeChar_eq_singleton (Char.utf8Size_eq_one_iff.mpr small)
    rw [List.utf8Encode_cons, List.utf8Encode_singleton, single, ByteArray.data_append,
      Array.toList_append, ih others]
    rfl

theorem ascii_byte {char : Char} (ascii : char.toNat ≤ 127) : char.toUInt8.toNat = char.toNat :=
  Nat.mod_eq_of_lt (Nat.lt_of_le_of_lt ascii (by decide))

theorem drop_shown {text : Bytes} (shown : ∀ b ∈ text, 32 < b.toNat) :
    text.dropWhile isBlank = text := by
  refine List.dropWhile_eq_self_iff.mpr fun some_byte blank => ?_
  have first := shown _ (List.getElem_mem some_byte)
  have small := (blank_iff _).mp blank
  omega

theorem shown_stored {text : Bytes} (shown : ∀ b ∈ text, 32 < b.toNat ∧ b.toNat ≤ 127) :
    storedText text = text := by
  have ascii : text.map asciiByte = text := by
    refine (List.map_congr_left fun b member => ?_).trans (List.map_id text)
    have small : ¬ b > 127 := Nat.not_lt.mpr (shown b member).2
    rw [asciiByte, if_neg small, id]
  have front := drop_shown fun b member => (shown b member).1
  have back := @drop_shown text.reverse fun b member =>
    (shown b (List.mem_reverse.mp member)).1
  rw [storedText, ascii, trim, front, back, List.reverse_reverse]

theorem digit_range {char : Char} (digit : char.isDigit = true) :
    48 ≤ char.toNat ∧ char.toNat ≤ 57 := by
  rw [Char.isDigit, Bool.and_eq_true, decide_eq_true_eq, decide_eq_true_eq] at digit
  exact digit

theorem number_cons (char : Char) (rest : List Char) :
    Nat.ofDigitChars 10 (char :: rest) 0 =
      10 ^ rest.length * (char.toNat - 48) + Nat.ofDigitChars 10 rest 0 := by
  have zero : '0'.toNat = 48 := rfl
  rw [Nat.ofDigitChars_cons, Nat.ofDigitChars_eq_ofDigitChars_zero, zero, Nat.mul_zero,
    Nat.zero_add]

theorem number_bound {digits : List Char} (known : ∀ char ∈ digits, char.isDigit = true) :
    Nat.ofDigitChars 10 digits 0 < 10 ^ digits.length := by
  induction digits with
  | nil => exact Nat.zero_lt_one
  | cons char rest ih =>
    obtain ⟨digit, others⟩ := List.forall_mem_cons.mp known
    have range := digit_range digit
    have later := ih others
    have most : 10 ^ rest.length * (char.toNat - 48) ≤ 10 ^ rest.length * 9 :=
      Nat.mul_le_mul_left _ (by omega)
    rw [number_cons, List.length_cons, Nat.pow_succ]
    omega

theorem number_less {char other : Char} {rest tail : List Char} (less : char.toNat < other.toNat)
    (range : 48 ≤ char.toNat) (known : ∀ char ∈ rest, char.isDigit = true)
    (long : rest.length = tail.length) :
    Nat.ofDigitChars 10 (char :: rest) 0 < Nat.ofDigitChars 10 (other :: tail) 0 := by
  have bound := number_bound known
  have step : 10 ^ rest.length * (char.toNat - 48 + 1) ≤ 10 ^ rest.length * (other.toNat - 48) :=
    Nat.mul_le_mul_left _ (by omega)
  rw [Nat.mul_add, Nat.mul_one] at step
  rw [number_cons, number_cons, ← long]
  omega

-- By induction on the digits: the first one decides, unless it is the same in both numbers.
theorem digits_lt_iff {digits others : List Char} (known : ∀ char ∈ digits, char.isDigit = true)
    (also : ∀ char ∈ others, char.isDigit = true) (long : digits.length = others.length) :
    digits.map Char.toUInt8 < others.map Char.toUInt8 ↔
      Nat.ofDigitChars 10 digits 0 < Nat.ofDigitChars 10 others 0 := by
  induction digits generalizing others with
  | nil =>
    cases List.length_eq_zero_iff.mp long.symm
    exact iff_of_false (List.lt_irrefl _) (Nat.lt_irrefl _)
  | cons char rest ih =>
    obtain _ | ⟨other, tail⟩ := others
    · cases long
    obtain ⟨digit, restKnown⟩ := List.forall_mem_cons.mp known
    obtain ⟨otherDigit, tailKnown⟩ := List.forall_mem_cons.mp also
    have range := digit_range digit
    have otherRange := digit_range otherDigit
    have length : rest.length = tail.length := Nat.succ.inj long
    rw [List.map_cons, List.map_cons, List.cons_lt_cons_iff, UInt8.lt_iff_toNat_lt,
      ← UInt8.toNat_inj, ascii_byte (by omega), ascii_byte (by omega),
      ih restKnown tailKnown length]
    rcases Nat.lt_trichotomy char.toNat other.toNat with less | same | more
    · exact iff_of_true (.inl less) (number_less less range.1 restKnown length)
    · rw [number_cons, number_cons, same, length]
      omega
    · have greater := number_less more otherRange.1 tailKnown length.symm
      omega

def codeDigits (i : UInt64) : List Char :=
  List.replicate (9 - (Nat.toDigits 10 i.toNat).length) '0' ++ Nat.toDigits 10 i.toNat

theorem code_text (i : UInt64) : orderCode i = String.ofList ("ORD".toList ++ codeDigits i) :=
  congrArg String.ofList (List.append_assoc _ _ _)

theorem code_digit (i : UInt64) : ∀ char ∈ codeDigits i, char.isDigit = true := by
  intro char member
  rcases List.mem_append.mp member with padding | digit
  · rw [(List.mem_replicate.mp padding).2]
    rfl
  · exact Nat.isDigit_of_mem_toDigits (by decide) (by decide) digit

theorem code_number (i : UInt64) : Nat.ofDigitChars 10 (codeDigits i) 0 = i.toNat := by
  rw [codeDigits, Nat.ofDigitChars_append, Nat.ofDigitChars_replicate_zero, Nat.mul_zero,
    Nat.ofDigitChars_toDigits (by decide) (by decide)]

theorem nine_digits_iff (i : UInt64) : (codeDigits i).length = 9 ↔ i.toNat < 10 ^ 9 := by
  rw [codeDigits, List.length_append, List.length_replicate,
    ← Nat.length_toDigits_le_iff (by decide) (by decide)]
  omega

theorem code_shown (i : UInt64) :
    ∀ char ∈ "ORD".toList ++ codeDigits i, 32 < char.toNat ∧ char.toNat ≤ 127 := by
  intro char member
  rcases List.mem_append.mp member with letter | digit
  · have letters : ∀ char ∈ ['O', 'R', 'D'], 32 < char.toNat ∧ char.toNat ≤ 127 := by simp
    exact letters char letter
  · have range := digit_range (code_digit i char digit)
    omega

theorem code_bytes (i : UInt64) :
    utf8 (orderCode i) = ("ORD".toList ++ codeDigits i).map Char.toUInt8 := by
  rw [code_text, utf8_ascii fun char member => (code_shown i char member).2]

theorem code_length_iff (i : UInt64) : (utf8 (orderCode i)).length = 12 ↔ i.toNat < 10 ^ 9 := by
  have letters : "ORD".toList.length = 3 := rfl
  rw [← nine_digits_iff, code_bytes, List.length_map, List.length_append, letters]
  omega

theorem code_stored (i : UInt64) : storedText (utf8 (orderCode i)) = utf8 (orderCode i) := by
  refine shown_stored fun b member => ?_
  rw [code_bytes] at member
  obtain ⟨char, known, rfl⟩ := List.mem_map.mp member
  have shown := code_shown i char known
  rw [ascii_byte shown.2]
  exact shown

theorem code_injective : Function.Injective fun i => utf8 (orderCode i) := by
  intro i j same
  have text := utf8_injective same
  rw [code_text, code_text] at text
  have digits : codeDigits i = codeDigits j :=
    List.append_cancel_left (String.ofList_injective text)
  rw [← UInt64.toNat_inj, ← code_number i, ← code_number j, digits]

theorem code_lt_iff {i j : UInt64} (small : i.toNat < 10 ^ 9) (few : j.toNat < 10 ^ 9) :
    utf8 (orderCode i) < utf8 (orderCode j) ↔ i < j := by
  have long : (codeDigits i).length = (codeDigits j).length :=
    ((nine_digits_iff i).mpr small).trans ((nine_digits_iff j).mpr few).symm
  have digits := digits_lt_iff (code_digit i) (code_digit j) long
  rw [code_number, code_number, ← UInt64.lt_iff_toNat_lt] at digits
  rw [← digits, code_bytes, code_bytes, List.map_append, List.map_append]
  have letters : "ORD".toList.map Char.toUInt8 = [79, 82, 68] := rfl
  have same (b : UInt8) : ¬ b < b := Nat.lt_irrefl b.toNat
  simp only [letters, List.cons_append, List.nil_append, List.cons_lt_cons_iff, same, false_or,
    true_and]

theorem code_kept {σ : Type} (owner : IndexOwner σ) (state : σ) {cursor : Cursor}
    {memory : Memory} {place : Place} (stands : cursor.On orderLayout memory place)
    (writable : place.buffer.isMutable = true) {write : FieldWrite} {i : UInt64}
    (code : write.value = .text (utf8 (orderCode i))) (small : i.toNat < 10 ^ 9) :
    ∃ written, write.run owner cursor memory state orderIds.code = .ok written ∧
      (written.accepted = true ↔ cursor.reports = true →
        (owner.isFree memory state orderIds.code write.value).1 = true) ∧
      (written.accepted = true →
        cursor.read written.memory orderIds.code = .ok write.value) := by
  obtain ⟨slot, known, type, length, attrs⟩ : ∃ slot,
      orderLayout.fields[orderIds.code]? = some slot ∧ slot.type = .fixedString ∧
      slot.length = 12 ∧ slot.attrs = { indexed := true, unique := true } :=
    ⟨_, rfl, rfl, rfl, rfl⟩
  have stored : write.value.stored = write.value := by rw [code, Value.stored, code_stored]
  have accepts : cursor.Accepts orderIds.code write.value place slot := by
    refine ⟨stands.placed, ?_, ?_, ?_, writable, ?_, ?_⟩
    · rw [stands.shape, known]
    · rw [code, type]
      rfl
    · rw [attrs]
    · rw [code, length, Value.overflow?, (code_length_iff i).mpr small]
      rfl
    · rw [attrs]
      rfl
  obtain ⟨written, ran, -, -, taken⟩ :=
    @FieldWrite.run_puts _ owner state _ _ _ _ _ _ _ order_packed stands accepts
  refine ⟨written, ran, ?_, fun yes => ?_⟩
  · rw [FieldWrite.run_decided accepts ran, Cursor.consult, stored, attrs]
    cases cursor.reports <;> simp
  · have type := (FieldWrite.filled_accepted accepts).type
    rw [read_stored order_packed stands known type (taken yes), FieldWrite.filled_stored, stored]

theorem codes_tell_orders :
    (Function.Injective fun i => utf8 (orderCode i)) ∧
    (∀ i : UInt64, (utf8 (orderCode i)).length = 12 ↔ i.toNat < 10 ^ 9) ∧
    (∀ i j : UInt64, i.toNat < 10 ^ 9 → j.toNat < 10 ^ 9 →
      (utf8 (orderCode i) < utf8 (orderCode j) ↔ i < j)) ∧
    Layout.build orderSchema = .ok orderLayout ∧ orderFields orderLayout = .ok orderIds ∧
    (∃ slot, orderLayout.fields[orderIds.code]? = some slot ∧ slot.length = 12 ∧
      slot.attrs.unique = true) ∧
    ∀ {σ : Type} (owner : IndexOwner σ) (state : σ) (cursor : Cursor) (memory : Memory)
      (place : Place), cursor.On orderLayout memory place → place.buffer.isMutable = true →
      ∀ (write : FieldWrite) (i : UInt64), write.value = .text (utf8 (orderCode i)) →
        i.toNat < 10 ^ 9 →
        ∃ written, write.run owner cursor memory state orderIds.code = .ok written ∧
          (written.accepted = true ↔ cursor.reports = true →
            (owner.isFree memory state orderIds.code write.value).1 = true) ∧
          (written.accepted = true →
            cursor.read written.memory orderIds.code = .ok write.value) := by
  refine ⟨code_injective, code_length_iff, fun i j => code_lt_iff, order_built, order_fields,
    ⟨_, rfl, rfl, rfl⟩, ?_⟩
  intro σ owner state cursor memory place stands writable write i code small
  exact code_kept owner state stands writable code small

def tenthPlace : Place := ⟨⟨0, 0, 64, Capabilities.all⟩, 3⟩

def tenthMemory : Memory := Memory.empty.grow 64

def tenthCursor : Cursor := { layout := orderLayout, reports := true, place := tenthPlace }

def ninthCode : ValueIndex :=
  ValueIndex.assign { field := 3, unique := true } 51 (.text (utf8 (orderCode 9)))

theorem ninth_and_tenth_code :
    (9 : UInt64).toNat < 10 ^ 9 ∧ (10 : UInt64).toNat < 10 ^ 9 ∧
    utf8 (orderCode 9) ≠ utf8 (orderCode 10) ∧ utf8 (orderCode 9) < utf8 (orderCode 10) ∧
    (utf8 (orderCode 999999999)).length = 12 ∧ (utf8 (orderCode 1000000000)).length ≠ 12 ∧
    tenthCursor.On orderLayout tenthMemory tenthPlace ∧ tenthPlace.buffer.isMutable = true ∧
    (∃ written, (FieldWrite.plain (.text (utf8 (orderCode 9)))).run indexOwner tenthCursor
      tenthMemory [ninthCode] orderIds.code = .ok written ∧ written.accepted = false) ∧
    ∃ written, (FieldWrite.padded (utf8 (orderCode 10))).run indexOwner tenthCursor tenthMemory
        [ninthCode] orderIds.code = .ok written ∧ written.accepted = true ∧
      tenthCursor.read written.memory orderIds.code = .ok (.text (utf8 (orderCode 10))) := by
  obtain ⟨injective, fills, ordered, -, -, -, writes⟩ := codes_tell_orders
  have nine : (9 : UInt64).toNat < 10 ^ 9 := by decide
  have ten : (10 : UInt64).toNat < 10 ^ 9 := by decide
  let unbound : Cursor := { layout := orderLayout, reports := true }
  have bound : unbound.bind tenthPlace.buffer tenthPlace.offset = .ok tenthCursor := by decide
  have fits : tenthPlace.buffer.Fits tenthMemory := by
    rw [View.Fits]
    decide
  have stands : tenthCursor.On orderLayout tenthMemory tenthPlace := bind_on rfl fits bound
  have taken : ¬ (indexOwner.isFree tenthMemory [ninthCode] orderIds.code
      (.text (utf8 (orderCode 9)))).1 = true := by decide +kernel
  have free : (indexOwner.isFree tenthMemory [ninthCode] orderIds.code
      (.text (utf8 (orderCode 10)))).1 = true := by decide +kernel
  obtain ⟨refused, tried, heard, -⟩ := writes indexOwner [ninthCode] tenthCursor tenthMemory
    tenthPlace stands rfl (.plain (.text (utf8 (orderCode 9)))) 9 rfl nine
  obtain ⟨written, ran, asked, reads⟩ := writes indexOwner [ninthCode] tenthCursor tenthMemory
    tenthPlace stands rfl (.padded (utf8 (orderCode 10))) 10 rfl ten
  have yes := asked.mpr fun _ => free
  refine ⟨nine, ten, ?_, (ordered 9 10 nine ten).mpr (by decide), (fills _).mpr (by decide), ?_,
    stands, rfl, ⟨refused, tried, ?_⟩, written, ran, yes, reads yes⟩
  · intro same
    exact absurd (injective same) (by decide)
  · rw [ne_eq, fills]
    decide
  · rw [← Bool.not_eq_true, heard]
    exact fun free => taken (free rfl)

end RecordStore.Workload
