import RecordStore.Cursor.Standalone
import RecordStore.Proofs.Completeness
import RecordStore.Proofs.Copying
import RecordStore.Proofs.Counting
import RecordStore.Proofs.Lockstep
import RecordStore.Proofs.WriteOrder

namespace RecordStore

inductive Input where
  | value (value : Value)
  | number (n : Int64)
deriving DecidableEq, Repr

def FieldSlot.Shows (slot : FieldSlot) (held : Value) : Option Input → Prop
  | some (.value value) => value.ReadsAs held
  | some (.number n) => held.type = slot.type ∧ held.integer? = some n
  | none =>
    if slot.attrs.sequence then held.type = slot.type ∧ held.integer? = some 1
    else held = slot.type.zero

theorem Value.stored_type (value : Value) : value.stored.type = value.type := by
  cases value <;> rfl

section Fits

variable {slot : FieldSlot} {n : Int64}

theorem fits_whole (sized : slot.Sized) (integer : slot.type.isInteger = true)
    (fits : slot.type.Fits n) : n.toInt.bmod (2 ^ (8 * slot.length.toNat)) = n.toInt := by
  rcases integer_width sized integer with ⟨type, width⟩ | ⟨type, width⟩ | ⟨type, width⟩ <;>
    rw [type] at fits <;> rw [width]
  · exact Int.bmod_eq_of_le (by simpa using fits.1) (by simpa using fits.2)
  · exact Int64.toInt_bmod_size n
  · exact Int.bmod_eq_of_le (by simpa using fits.1) (by simpa using fits.2)

theorem one_fits (integer : slot.type.isInteger = true) : slot.type.Fits 1 := by
  cases type : slot.type with
  | int32 | int64 | int16 => decide
  | bool | char16 | fixedString | varString =>
    rw [type] at integer
    cases integer

theorem fits_held (sized : slot.Sized) (integer : slot.type.isInteger = true)
    (fits : slot.type.Fits n) {value : Value} (cut : Value.ofInteger? slot.type n = some value) :
    value.stored.type = slot.type ∧ value.stored.integer? = some n := by
  obtain ⟨same, m, again, held, wraps⟩ := cut_wraps sized integer n
  cases again.symm.trans cut
  rw [fits_whole sized integer fits] at wraps
  rw [← Int64.toInt_inj.mp wraps, Value.stored_type]
  exact ⟨(of_integer_typed cut).1, held⟩

end Fits

structure Cursor.Carries (cursor : Cursor) (layout : Layout) (memory : Memory) (place : Place)
    (held : Nat → Value) : Prop where
  stands : cursor.On layout memory place
  header : part (place.buffer.bytes memory) place.offset.toNat 8 = layout.header.encode
  fields : ∀ field slot, layout.fields[field]? = some slot →
    Value.decode? slot.type (place.contentOf memory slot) = some (held field)

section Carries

variable {layout : Layout} {memory after : Memory} {cursor : Cursor} {place : Place}
  {held : Nat → Value} {field : Nat} {slot : FieldSlot} (packed : layout.Packed)
include packed

theorem carries_reads (carries : cursor.Carries layout memory place held)
    (known : layout.fields[field]? = some slot) : cursor.read memory field = .ok (held field) := by
  have column : cursor.layout.fields[field]? = some slot := by rw [carries.stands.shape, known]
  rw [Cursor.read_placed carries.stands.placed column,
    read_slot_ok packed known carries.stands.holds]
  exact carries.fields field slot known

theorem carries_heads (carries : cursor.Carries layout memory place held) :
    cursor.headerMatches memory = .ok true := by
  have holds := carries.stands.holds
  have header := packed.header
  rw [Place.Holds] at holds
  rw [Cursor.headerMatches, carries.stands.placed, carries.stands.shape]
  dsimp only
  rw [Header.load_encoded (by omega) carries.header]
  exact congrArg Except.ok (beq_self_eq_true _)

theorem carries_stored (carries : cursor.Carries layout memory place held)
    (known : layout.fields[field]? = some slot) {value : Value} (typed : value.type = slot.type)
    (stored : Stored memory after place slot (value.encode slot.length.toNat)) :
    cursor.Carries layout after place (Function.update held field value.stored) := by
  have room := stored_room packed carries.stands known
  have behind := packed.behind field slot known
  have whole := View.bytes_length _ _ carries.stands.fits
  have holds := carries.stands.holds
  rw [Place.Holds, ← whole] at holds
  refine ⟨on_alike carries.stands stored.alike, ?_, fun other column found => ?_⟩
  · rw [stored.bytes, part_splice_apart _ _ _ _ _ (by rw [stored.whole]; exact room)
      (.inl (by omega))]
    exact carries.header
  · rw [Place.contentOf, stored.bytes]
    by_cases same : other = field
    · subst same
      cases known.symm.trans found
      rw [content_same stored.whole room, Function.update_self, ← typed]
      exact Value.decode_encode value _
    · rw [content_apart packed known found (Ne.symm same) stored.whole holds,
        Function.update_of_ne same]
      exact carries.fields other column found

omit packed in
theorem carries_kept (carries : cursor.Carries layout memory place held)
    (fits : place.buffer.Fits after)
    (kept : place.buffer.bytes after = place.buffer.bytes memory) :
    cursor.Carries layout after place held := by
  refine ⟨{ carries.stands with fits }, ?_, fun field slot known => ?_⟩
  · rw [kept]
    exact carries.header
  · rw [Place.contentOf, kept]
    exact carries.fields field slot known

end Carries

/-! ### New records -/

def Layout.zeros (layout : Layout) (field : Nat) : Value :=
  (layout.fields[field]?.map (·.type.zero)).getD (.bool false)

section New

variable {layout : Layout} {memory after : Memory} {cursor : Cursor} {place : Place}
  {held : Nat → Value} {field : Nat} {slot : FieldSlot} (packed : layout.Packed)
include packed

theorem put_stored (stands : cursor.On layout memory place)
    (known : layout.fields[field]? = some slot) {value : Value} (typed : value.type = slot.type)
    (short : value.overflow? slot.length = none)
    (put : place.writeSlot memory slot value = .ok after) :
    Stored memory after place slot (value.encode slot.length.toNat) := by
  obtain ⟨alike, bytes⟩ :=
    write_slot_ok packed known stands.holds stands.fits typed short put
  exact ⟨alike, FieldSlot.encode_length (packed.sized field slot known) typed short, bytes⟩

theorem sequence_set (carries : cursor.Carries layout memory place held)
    (known : layout.fields[field]? = some slot) {n : Int64} (fits : slot.type.Fits n)
    (set : cursor.setSequence memory field n = .ok after) :
    ∃ value : Value, value.type = slot.type ∧ value.integer? = some n ∧
      cursor.Carries layout after place (Function.update held field value) := by
  obtain ⟨there, column, value, counts, cut, put⟩ := Cursor.set_sequence_ok.mp set
  cases counts.placed.symm.trans carries.stands.placed
  have same : layout.fields[field]? = some column := by
    rw [← carries.stands.shape, counts.field]
  cases known.symm.trans same
  obtain ⟨integer, -⟩ := packed.counter field slot known counts.sequence
  obtain ⟨typed, short⟩ := of_integer_typed cut
  obtain ⟨type, whole⟩ := fits_held (packed.sized field slot known) integer fits cut
  exact ⟨value.stored, type, whole, carries_stored packed carries known typed
    (put_stored packed carries.stands known typed (short _) put)⟩

-- By induction over the fields: those that were set hold one, the others what they held.
theorem sequences_set (writable : place.buffer.isMutable = true)
    (unlocked : cursor.keyLocked = false) (fields : List Nat) (sequences : ∀ field ∈ fields, ∃ slot,
      layout.fields[field]? = some slot ∧ slot.attrs.sequence = true)
    (carries : cursor.Carries layout memory place held) :
    ∃ after later, fields.foldlM (fun memory field => cursor.setSequence memory field 1) memory =
        .ok after ∧
      cursor.Carries layout after place later ∧
      ∀ field slot, layout.fields[field]? = some slot →
        if field ∈ fields then (later field).type = slot.type ∧ (later field).integer? = some 1
        else later field = held field := by
  induction fields generalizing memory held with
  | nil => exact ⟨memory, held, rfl, carries, fun field slot known => rfl⟩
  | cons first rest ih =>
    obtain ⟨slot, known, sequence⟩ := sequences first List.mem_cons_self
    have sized := packed.sized first slot known
    obtain ⟨integer, -⟩ := packed.counter first slot known sequence
    have counts : cursor.Counts first place slot :=
      ⟨carries.stands.placed, by rw [carries.stands.shape, known], sequence, writable,
        by rw [unlocked, Bool.and_false]⟩
    obtain ⟨value, -, cut, -⟩ := cut_wraps sized integer 1
    obtain ⟨typed, short⟩ := of_integer_typed cut
    obtain ⟨mid, put⟩ := write_slot_runs packed known carries.stands.holds writable typed
      (short slot.length) memory
    have set : cursor.setSequence memory first 1 = .ok mid :=
      Cursor.set_sequence_ok.mpr ⟨place, slot, value, counts, cut, put⟩
    obtain ⟨one, type, whole, carried⟩ :=
      sequence_set packed carries known (one_fits integer) set
    obtain ⟨after, later, ran, done, values⟩ :=
      ih (fun field member => sequences field (List.mem_cons_of_mem _ member)) carried
    refine ⟨after, later, ?_, done, fun field column found => ?_⟩
    · rw [List.foldlM_cons, set]
      exact ran
    · have value := values field column found
      by_cases again : field ∈ rest
      · rw [if_pos again] at value
        rw [if_pos (List.mem_cons_of_mem _ again)]
        exact value
      · rw [if_neg again] at value
        by_cases same : field = first
        · subst same
          cases known.symm.trans found
          rw [if_pos List.mem_cons_self, value, Function.update_self]
          exact ⟨type, whole⟩
        · have absent : field ∉ first :: rest := fun member =>
            (List.mem_cons.mp member).elim same again
          rw [if_neg absent, value, Function.update_of_ne same]

omit packed in
theorem zeros_known (known : layout.fields[field]? = some slot) :
    layout.zeros field = slot.type.zero := by
  rw [Layout.zeros, known]
  rfl

omit packed in
theorem grown_bytes (memory : Memory) (size : UInt64) :
    View.bytes ⟨memory.fresh, 0, size, Capabilities.all⟩ (memory.grow size.toNat) =
      List.replicate size.toNat 0 := by
  apply List.ext_getElem?
  intro i
  rw [View.bytes_get, Memory.region_grow, Region.blank, List.getElem?_replicate]
  dsimp only
  split
  · rw [Array.getElem?_replicate, if_pos (by omega)]
  · rfl

theorem zeros_carry (memory : Memory) (cursor : Cursor) (shape : cursor.layout = layout)
    (placed : cursor.place = some ⟨⟨memory.fresh, 0, layout.stride, Capabilities.all⟩, 0⟩) :
    let place : Place := ⟨⟨memory.fresh, 0, layout.stride, Capabilities.all⟩, 0⟩
    cursor.Carries layout
      (place.buffer.poke (memory.grow layout.stride.toNat) 0 layout.header.encode) place
      layout.zeros := by
  intro place
  have header := packed.header
  have eight : layout.header.encode.length = 8 := Header.encode_length _
  have fits : place.buffer.Fits (memory.grow layout.stride.toNat) := by
    rw [View.Fits, Memory.region_grow, Region.blank, Array.size_replicate, Nat.zero_add]
  have bytes : place.buffer.bytes
      (place.buffer.poke (memory.grow layout.stride.toNat) 0 layout.header.encode) =
        splice (List.replicate layout.stride.toNat 0) 0 layout.header.encode := by
    rw [View.bytes_poke _ _ _ _ fits (by rw [eight]; exact header), grown_bytes]
    rfl
  have whole : 0 + layout.stride.toNat ≤
      (List.replicate layout.stride.toNat (0 : UInt8)).length := by
    rw [List.length_replicate, Nat.zero_add]
  refine ⟨⟨shape, placed, Nat.le_of_eq (Nat.zero_add _),
    View.fits_alike fits (View.poke_alike _ _ _ _)⟩, ?_, fun field slot known => ?_⟩
  · rw [bytes, ← eight]
    exact part_splice _ 0 _ (by omega)
  · have inside := packed.inside field slot known
    have content : place.contentOf
        (place.buffer.poke (memory.grow layout.stride.toNat) 0 layout.header.encode) slot =
          List.replicate slot.length.toNat 0 := by
      rw [Place.contentOf, bytes]
      refine (content_behind packed known eight whole).trans ?_
      rw [contentAt, part, List.drop_replicate, List.take_replicate, Nat.zero_add]
      congr 1
      omega
    rw [content, zeros_known known]
    exact Value.decode_zero (FieldSlot.sized_known (packed.sized field slot known)) _

omit packed in
theorem sequence_listed (listed : field ∈ layout.sequencePositions) :
    ∃ slot, layout.fields[field]? = some slot ∧ slot.attrs.sequence = true := by
  obtain ⟨⟨slot, id⟩, member, rfl⟩ := List.mem_map.mp listed
  obtain ⟨member, sequence⟩ := List.mem_filter.mp member
  exact ⟨slot, List.mk_mem_zipIdx_iff_getElem?.mp member, sequence⟩

omit packed in
theorem sequence_found (known : layout.fields[field]? = some slot)
    (sequence : slot.attrs.sequence = true) : field ∈ layout.sequencePositions :=
  List.mem_map.mpr ⟨(slot, field),
    List.mem_filter.mpr ⟨List.mk_mem_zipIdx_iff_getElem?.mpr known, sequence⟩, rfl⟩

theorem standalone_carries (short : layout.stride ≤ Layout.maxStride) (memory : Memory) :
    ∃ cursor after place held, Cursor.standalone (some layout) memory = .ok (cursor, after) ∧
      place.offset = 0 ∧ place.buffer.isMutable = true ∧ cursor.Carries layout after place held ∧
      ∀ (field : Nat) (slot : FieldSlot), layout.fields[field]? = some slot →
        slot.Shows (held field) none := by
  let place : Place := ⟨⟨memory.fresh, 0, layout.stride, Capabilities.all⟩, 0⟩
  let cursor : Cursor := { layout, reports := false, place := some place }
  have header := packed.header
  have filled : layout.stride ≠ 0 := fun zero => by
    rw [zero] at header
    exact absurd header (by decide)
  have allocated : memory.allocate layout.stride 64 =
      .ok (place.buffer, memory.grow layout.stride.toNat) := by
    rw [allocate_eq (word_pos filled) (by decide),
      if_pos (grants_record short)]
  have bound : ({ layout, reports := false } : Cursor).bind place.buffer 0 = .ok cursor :=
    Cursor.move_ok.mpr ⟨Nat.le_of_eq (Nat.zero_add _), rfl, rfl⟩
  have writable : place.buffer.isMutable = true := View.mutable_of_all rfl
  have room : place.buffer.inBounds place.offset 8 = true :=
    (View.in_bounds_iff _ _ _).mpr ((Nat.zero_add _).le.trans header)
  have headed := @Cursor.put_header_runs cursor place rfl writable room
    (memory.grow layout.stride.toNat)
  obtain ⟨after, held, ran, carries, values⟩ := sequences_set packed writable rfl
    layout.sequencePositions (fun _ => sequence_listed)
    (zeros_carry packed memory cursor rfl rfl)
  refine ⟨cursor, after, place, held, ?_, rfl, writable, carries, fun field slot known => ?_⟩
  · refine except_bind_ok.mpr ⟨_, rfl, except_bind_ok.mpr ⟨_, allocated, ?_⟩⟩
    refine except_bind_ok.mpr ⟨_, bound, except_bind_ok.mpr ⟨_, headed, ?_⟩⟩
    exact except_bind_ok.mpr ⟨_, ran, rfl⟩
  · have value := values field slot known
    rw [FieldSlot.Shows]
    cases sequence : slot.attrs.sequence with
    | true =>
      rw [if_pos (sequence_found known sequence)] at value
      exact value
    | false =>
      have absent : field ∉ layout.sequencePositions := fun listed => by
        obtain ⟨same, found, counts⟩ := sequence_listed listed
        cases known.symm.trans found
        exact Bool.false_ne_true (sequence.symm.trans counts)
      rw [if_neg absent, zeros_known known] at value
      exact value

end New

/-! ### Staging -/

-- Everything that can become of a new record outside any table, with what its fields were given,
-- the latest first. In between anybody may change memory that is not the record's, or take more.
inductive Staged {σ : Type} (owner : IndexOwner σ) (layout : Layout) :
    List (Nat × Input) → Session σ → Prop
  | made {memory after cursor state notices}
      (made : Cursor.standalone (some layout) memory = .ok (cursor, after)) :
      Staged owner layout [] ⟨cursor, after, state, notices⟩
  | written {given session after field} {write : FieldWrite}
      (staged : Staged owner layout given session)
      (ran : (write.work field).run owner session = .ok (.truth true) after) :
      Staged owner layout ((field, .value write.value) :: given) after
  | set {given session answer after field n slot} (staged : Staged owner layout given session)
      (known : layout.fields[field]? = some slot) (fits : slot.type.Fits n)
      (ran : (CursorOperation.setSequence field n).run owner session = .ok answer after) :
      Staged owner layout ((field, .number n) :: given) after
  | beside {given} {session after : Session σ} (staged : Staged owner layout given session)
      (cursor : after.cursor = session.cursor) (grows : session.memory.Grows after.memory)
      (kept : session.cursor.buffer.bytes after.memory =
        session.cursor.buffer.bytes session.memory) :
      Staged owner layout given after

section Staged

variable {σ : Type} {owner : IndexOwner σ} {layout : Layout} {session after : Session σ}
  {given : List (Nat × Input)} {field : Nat} {place : Place} {held : Nat → Value}
  (packed : layout.Packed)
include packed

theorem work_carries {write : FieldWrite}
    (carries : session.cursor.Carries layout session.memory place held)
    (ran : (write.work field).run owner session = .ok (.truth true) after) :
    after.cursor = session.cursor ∧ after.cursor.Carries layout after.memory place
      (Function.update held field write.value.stored) := by
  have first :=
    FieldWrite.run_first_fault owner session.cursor session.memory session.owner field write
  cases found : write.firstFault session.cursor field with
  | some fault =>
    rw [found] at first
    cases (FieldWrite.work_fault first).symm.trans ran
  | none =>
    rw [found] at first
    obtain ⟨there, slot, accepts⟩ := first
    cases accepts.placed.symm.trans carries.stands.placed
    have known : layout.fields[field]? = some slot := by
      rw [← carries.stands.shape, accepts.field]
    obtain ⟨written, tried, -, -, stored⟩ :=
      @FieldWrite.run_puts _ owner session.owner _ _ _ _ _ _ _ packed carries.stands accepts
    injection (FieldWrite.work_run tried).symm.trans ran with answered left
    subst left
    have typed := (FieldWrite.filled_accepted accepts).type
    have done :=
      carries_stored packed carries known typed (stored (CursorAnswer.truth.inj answered))
    rw [FieldWrite.filled_stored] at done
    exact ⟨rfl, done⟩

theorem set_carries {slot : FieldSlot} {n : Int64} {answer : CursorAnswer}
    (carries : session.cursor.Carries layout session.memory place held)
    (known : layout.fields[field]? = some slot) (fits : slot.type.Fits n)
    (ran : (CursorOperation.setSequence field n).run owner session = .ok answer after) :
    ∃ value : Value, value.type = slot.type ∧ value.integer? = some n ∧
      after.cursor = session.cursor ∧
      after.cursor.Carries layout after.memory place (Function.update held field value) := by
  cases tried : session.cursor.setSequence session.memory field n with
  | error fault =>
    have failed : (CursorOperation.setSequence field n).run owner session = .error fault session :=
      tried_fault rfl tried
    cases failed.symm.trans ran
  | ok memory =>
    have done : Session.setSequence field n session = .ok ⟨⟩ { session with memory } := by
      rw [Session.setSequence, get_bind, attempt_ok tried]
      rfl
    cases (bind_ok done).symm.trans ran
    obtain ⟨value, typed, whole, carried⟩ := sequence_set packed carries known fits tried
    exact ⟨value, typed, whole, rfl, carried⟩

-- By induction over what was done: the record is where it was made, and each field shows what it
-- was given last.
theorem staged_carries (short : layout.stride ≤ Layout.maxStride)
    (staged : Staged owner layout given session) :
    ∃ place held, place.offset = 0 ∧
      session.cursor.Carries layout session.memory place held ∧
      ∀ (field : Nat) (slot : FieldSlot), layout.fields[field]? = some slot →
        slot.Shows (held field) (given.lookup field) := by
  induction staged with
  | @made memory after cursor state notices made =>
    obtain ⟨same, again, place, held, ran, first, -, carries, shows⟩ :=
      standalone_carries packed short memory
    cases ran.symm.trans made
    exact ⟨place, held, first, carries, shows⟩
  | @written given session after field write staged ran ih =>
    obtain ⟨place, held, first, carries, shows⟩ := ih
    obtain ⟨-, carried⟩ := work_carries packed carries ran
    refine ⟨place, _, first, carried, fun other slot known => ?_⟩
    by_cases same : other = field
    · subst same
      rw [Function.update_self, List.lookup_cons_self]
      exact stored_reads write.value
    · rw [Function.update_of_ne same, List.lookup_cons, beq_false_of_ne same]
      exact shows other slot known
  | @set given session answer after field n slot staged known fits ran ih =>
    obtain ⟨place, held, first, carries, shows⟩ := ih
    obtain ⟨value, typed, whole, -, carried⟩ := set_carries packed carries known fits ran
    refine ⟨place, _, first, carried, fun other column found => ?_⟩
    by_cases same : other = field
    · subst same
      cases known.symm.trans found
      rw [Function.update_self, List.lookup_cons_self]
      exact ⟨typed, whole⟩
    · rw [Function.update_of_ne same, List.lookup_cons, beq_false_of_ne same]
      exact shows other column found
  | beside staged cursor grows kept ih =>
    obtain ⟨place, held, first, carries, shows⟩ := ih
    rw [Cursor.buffer_placed carries.stands.placed] at kept
    refine ⟨place, held, first, ?_, shows⟩
    rw [cursor]
    exact carries_kept carries (Nat.le_trans carries.stands.fits (grows _)) kept

end Staged

/-! ### Tables that share memory -/

namespace Table

-- Everything that can become of a table whose cursors are used once they are handed out, with
-- anybody else changing memory in between.
inductive Reached (start : Table) : Hands → Table → Prop
  | made : Reached start Hands.fresh start
  | step {hands table operation} (reached : Reached start hands table)
      (allowed : hands.Allows operation) :
      Reached start (hands.note operation (table.answer operation)) (table.step operation)
  | beside {hands table memory} (reached : Reached start hands table)
      (grows : table.memory.Grows memory) : Reached start hands { table with memory }

section Reached

variable {start table : Table} {hands : Hands}

theorem formed_beside (formed : table.Formed) {memory : Memory}
    (grows : table.memory.Grows memory) : Formed { table with memory } where
  sound := { formed.sound with fits := Nat.le_trans formed.sound.fits (grows _) }
  packed := formed.packed
  key := formed.key
  spaced := formed.spaced
  size := formed.size
  finder := ⟨formed.finder.shape, formed.finder.reports⟩
  walker := ⟨formed.walker.shape, formed.walker.reports⟩
  counted := ⟨formed.counted.count, formed.counted.next, formed.counted.occupied,
    formed.counted.found, formed.counted.heads⟩
  saved bytes contents saved :=
    let counted := formed.saved bytes contents saved
    ⟨counted.count, counted.next, counted.occupied, counted.found, counted.heads⟩

theorem reached_formed (formed : start.Formed) (reached : start.Reached hands table) :
    table.Formed ∧ start.Framed table := by
  induction reached with
  | made => exact ⟨formed, framed_refl start⟩
  | @step hands table operation reached allowed ih =>
    obtain ⟨formed, framed⟩ := ih
    exact ⟨step_formed table operation formed,
      framed_trans framed (step_framed (step_cases formed operation))⟩
  | beside reached grows ih =>
    obtain ⟨formed, framed⟩ := ih
    exact ⟨formed_beside formed grows, ⟨framed.layout, framed.keyPosition, framed.capacity,
      framed.slotStride, framed.buffer⟩⟩

theorem reached_twin (twin : Twin start.memory Hands.fresh start start)
    (reached : start.Reached hands table) : ∃ base, Twin base hands table table := by
  induction reached with
  | made => exact ⟨_, twin⟩
  | @step hands table operation reached allowed ih =>
    obtain ⟨base, twin⟩ := ih
    exact ⟨base, (step_twin twin operation allowed).2⟩
  | @beside hands table memory reached grows ih =>
    obtain ⟨base, twin⟩ := ih
    exact ⟨memory, ⟨⟨rfl, rfl, rfl, rfl, rfl, rfl, rfl, rfl⟩, Memory.within_refl _, twin.finder,
      twin.walker, twin.ahead⟩⟩

end Reached

section Copy

variable {table : Table} {cursor : Cursor} {place : Place} {held : Nat → Value} {key : Int64}

theorem carried_key (formed : table.Formed)
    (carries : cursor.Carries table.layout table.memory place held)
    (integer : (held table.keyPosition).integer? = some key) :
    table.readKey place.buffer place.offset = .ok key := by
  obtain ⟨slot, known, -, -⟩ := formed.key
  obtain ⟨room, content⟩ :=
    View.load_ok.mp (load_content formed.packed known carries.stands.holds table.memory)
  refine (read_key_ok known).mpr ⟨room, ?_⟩
  have signed : slot.type.signed? (place.contentOf table.memory slot) = some key := by
    rw [FieldType.signed?, carries.fields _ slot known]
    exact integer
  rw [← content] at signed
  exact signed

theorem brings_carries (formed : table.Formed)
    (carries : cursor.Carries table.layout table.memory place held) (room : table.isFull = false)
    {memory : Memory} (brings : table.Brings memory place.buffer place.offset) :
    (table.finder.onto table.buffer table.contents.nextFree).Carries table.layout memory
      ⟨table.buffer, table.contents.nextFree⟩ held := by
  have reach := next_room formed room
  have header := formed.packed.header
  have sourceRoom := (View.in_bounds_iff _ _ _).mp brings.room
  have length := View.peek_length place.buffer table.memory place.offset table.layout.stride
    carries.stands.fits sourceRoom
  refine ⟨⟨formed.finder.shape, rfl, reach, View.fits_alike formed.sound.fits brings.alike⟩, ?_,
    fun field slot known => ?_⟩
  · rw [← bytes_whole formed] at reach
    rw [brings.bytes]
    refine (part_splice_within _ _ _ 0 8 (by rw [length]; exact reach) (by omega)).trans ?_
    rw [View.peek_eq_part _ _ _ _ sourceRoom, part_part _ _ _ _ _ (by omega)]
    exact carries.header
  · rw [brings_content formed carries.stands.fits room brings known]
    exact carries.fields field slot known

theorem seek_lands {offset : UInt64} (found : table.contents.offsetByKey[key]? = some offset)
    (resident : table.finder.Resident table.layout table.buffer)
    (room : offset.toNat + table.layout.stride.toNat ≤ table.buffer.size.toNat) :
    table.answer (.seekKey key) = .ok (.truth true) ∧
      table.step (.seekKey key) =
        { table with finder := table.finder.onto table.buffer offset } := by
  obtain ⟨moved, bound⟩ := Cursor.resident_moves resident room
  have target : table.target? (.seekKey key) = some offset := found
  exact answer_step (seek_found target bound)

theorem carried_appends (formed : table.Formed)
    (resident : table.finder.Resident table.layout table.buffer)
    (carries : cursor.Carries table.layout table.memory place held) (room : table.isFull = false)
    (integer : (held table.keyPosition).integer? = some key) (fresh : table.hasKey key = false) :
    let copy : TableOperation := .appendCopy place.buffer place.offset
    table.answer copy = .ok (.truth true) ∧
      (table.step copy).finder.Carries table.layout (table.step copy).memory
        ⟨table.buffer, table.contents.nextFree⟩ held ∧
      (table.step copy).answer (.seekKey key) = .ok (.truth true) ∧
      ((table.step copy).step (.seekKey key)).finder = (table.step copy).finder ∧
      ((table.step copy).step (.seekKey key)).memory = (table.step copy).memory := by
  intro copy
  have ready := formed_ready formed
  have reach := next_room formed room
  have holds := carries.stands.holds
  have sourceRoom : place.buffer.inBounds place.offset table.layout.stride = true :=
    (View.in_bounds_iff _ _ _).mpr holds
  obtain ⟨memory, copied⟩ : ∃ memory, table.buffer.copy table.memory table.contents.nextFree
      place.buffer place.offset table.layout.stride = .ok memory :=
    ⟨_, View.copy_ok.mpr ⟨formed.sound.writable, (View.in_bounds_iff _ _ _).mpr reach, sourceRoom,
      rfl⟩⟩
  have brings := copy_brings ready copied
  obtain ⟨moved, bound⟩ := Cursor.resident_moves resident reach
  obtain ⟨read, reads⟩ := reads_exist ready.packed memory table.contents.nextFree
  obtain ⟨notices, ran⟩ :=
    adopted_run ready room (carried_key formed carries integer) fresh copied bound reads
  obtain ⟨answered, stepped⟩ := answer_step ran
  have framed := step_framed (step_cases formed copy)
  have landed : (table.step copy).finder =
      table.finder.onto table.buffer table.contents.nextFree := by
    rw [stepped]
  have entered : (table.step copy).contents.offsetByKey[key]? = some table.contents.nextFree := by
    rw [stepped]
    exact (enter_key fresh key).trans (if_pos rfl)
  have brought : (table.step copy).memory = memory := by rw [stepped]
  have stays : (table.step copy).finder.Resident (table.step copy).layout
      (table.step copy).buffer := by
    rw [landed, framed.layout, framed.buffer]
    refine ⟨resident.shape, resident.reports, fun there standing => ?_⟩
    cases standing
    exact View.same_bytes_iff.mpr ⟨rfl, rfl, rfl⟩
  have there : table.contents.nextFree.toNat + (table.step copy).layout.stride.toNat ≤
      (table.step copy).buffer.size.toNat := by
    rw [framed.layout, framed.buffer]
    exact reach
  obtain ⟨seen, sought⟩ := seek_lands entered stays there
  refine ⟨answered, ?_, seen, ?_, ?_⟩
  · rw [landed, brought]
    exact brings_carries formed carries room brings
  · rw [sought, landed, framed.buffer]
    rfl
  · rw [sought]

end Copy

end Table

theorem staged_record_appends {schema : Schema} {layout : Layout}
    (built : Layout.build schema = .ok layout) (narrow : layout.extent < UInt64.size) {σ : Type}
    (owner : IndexOwner σ) :
    (∀ memory, ∃ cursor after, Cursor.standalone (some layout) memory = .ok (cursor, after) ∧
      cursor.headerMatches after = .ok true ∧
      ∀ (field : Nat) (slot : FieldSlot), layout.fields[field]? = some slot →
        ∃ held, cursor.read after field = .ok held ∧ slot.Shows held none) ∧
    ∀ (given : List (Nat × Input)) (session : Session σ), Staged owner layout given session →
      (∀ (field : Nat) (slot : FieldSlot), layout.fields[field]? = some slot →
        ∃ held, session.cursor.read session.memory field = .ok held ∧
          slot.Shows held (given.lookup field)) ∧
      ∀ (memory : Memory) (capacity : UInt64) (options : TableOptions) (start : Table),
        Table.create memory (some layout) capacity options = .ok start →
        layout.extent + options.slotPadding.toNat < UInt64.size →
        ∀ (hands : Hands) (table : Table), start.Reached hands table →
          table.memory = session.memory →
          ∃ position value key, layout.keyPosition? = some position ∧
            session.cursor.read session.memory position = .ok value ∧ value.integer? = some key ∧
            (table.isFull = false → table.hasKey key = false →
              let copy : TableOperation := .appendCopy session.cursor.buffer 0
              let after := table.step copy
              let found := after.step (.seekKey key)
              table.answer copy = .ok (.truth true) ∧
              after.finder.headerMatches after.memory = .ok true ∧
              (∀ (field : Nat) (slot : FieldSlot), layout.fields[field]? = some slot →
                ∃ held, session.cursor.read session.memory field = .ok held ∧
                  after.finder.read after.memory field = .ok held) ∧
              after.answer (.seekKey key) = .ok (.truth true) ∧
              found.finder = after.finder ∧ found.memory = after.memory) := by
  obtain ⟨packed, -⟩ := Layout.build_packed built narrow
  have short := Layout.build_short built
  constructor
  · intro memory
    obtain ⟨cursor, after, place, held, ran, -, -, carries, shows⟩ :=
      standalone_carries packed short memory
    exact ⟨cursor, after, ran, carries_heads packed carries, fun field slot known =>
      ⟨_, carries_reads packed carries known, shows field slot known⟩⟩
  intro given session staged
  obtain ⟨place, held, first, carries, shows⟩ := staged_carries packed short staged
  refine ⟨fun field slot known =>
    ⟨_, carries_reads packed carries known, shows field slot known⟩, ?_⟩
  intro memory capacity options start created wide hands table reached shared
  have room := (Layout.build_wide built wide).2
  obtain ⟨formed, framed⟩ := Table.reached_formed (Table.create_formed created packed room) reached
  obtain ⟨base, twin⟩ := Table.reached_twin (Table.create_twin created) reached
  obtain ⟨same, known, made⟩ := Table.create_ok created
  cases known
  obtain ⟨-, position, -, -⟩ := made.key
  have shape : table.layout = layout := framed.layout.trans made.shape
  obtain ⟨slot, column, -, integer⟩ := formed.key
  rw [shape] at column
  obtain ⟨key, whole, -⟩ := signed_wraps (packed.sized _ slot column) integer
    (place.contentOf session.memory slot)
  rw [FieldType.signed?, carries.fields _ slot column] at whole
  have whole : (held table.keyPosition).integer? = some key := whole
  refine ⟨table.keyPosition, held table.keyPosition, key, ?_,
    carries_reads packed carries column, whole, ?_⟩
  · rw [framed.keyPosition]
    exact position
  intro open_ fresh
  rw [← shape, ← shared] at carries
  obtain ⟨answered, copied, seen, stays, kept⟩ :=
    Table.carried_appends formed twin.finder.here carries open_ whole fresh
  rw [Cursor.buffer_placed carries.stands.placed, ← first]
  rw [shape] at copied
  refine ⟨answered, carries_heads packed copied, fun field slot known => ?_, seen, stays, kept⟩
  rw [shape, shared] at carries
  exact ⟨_, carries_reads packed carries known, carries_reads packed copied known⟩

-- A label is staged while a table has one of its own, and then copied into it.
theorem label_staged_and_copied :
    ∃ (given : List (Nat × Input)) (session : Session (List ValueIndex)) (start table : Table)
      (hands : Hands), Staged indexOwner Layout.labelLayout given session ∧
      given = [(3, .number 9), (1, .value (.text [97, 200])), (0, .value (.int64 7))] ∧
      start.Reached hands table ∧ table.memory = session.memory ∧ table.hasKey 1 = true ∧
      let copy : TableOperation := .appendCopy session.cursor.buffer 0
      let after := table.step copy
      table.answer copy = .ok (.truth true) ∧
        after.finder.headerMatches after.memory = .ok true ∧
        (∃ held, after.finder.read after.memory 1 = .ok held ∧
          (Value.text [97, 200]).ReadsAs held) ∧
        (∃ held, after.finder.read after.memory 3 = .ok held ∧ held.integer? = some 9) ∧
        after.answer (.seekKey 7) = .ok (.truth true) := by
  let run (session : Session (List ValueIndex)) (operation : CursorOperation) :=
    stateOf (operation.run indexOwner session)
  let writeId : FieldWrite := .plain (.int64 7)
  let writeTag : FieldWrite := .padded [97, 200]
  let stage (made : Session (List ValueIndex)) : Session (List ValueIndex) :=
    run (run (run made (writeId.work 0)) (writeTag.work 1)) (.setSequence 3 9)
  obtain ⟨start, created, record, memory, made, id, tag, turn, grows, room, present, absent⟩ :
      ∃ start, Table.create Memory.empty (some Layout.labelLayout) 2 {} = .ok start ∧
      ∃ record memory, Cursor.standalone (some Layout.labelLayout) (start.step (.append 1)).memory =
        .ok (record, memory) ∧
      let made : Session (List ValueIndex) := ⟨record, memory, [], []⟩
      (writeId.work 0).run indexOwner made = .ok (.truth true) (run made (writeId.work 0)) ∧
      (writeTag.work 1).run indexOwner (run made (writeId.work 0)) =
        .ok (.truth true) (run (run made (writeId.work 0)) (writeTag.work 1)) ∧
      (CursorOperation.setSequence 3 9).run indexOwner
        (run (run made (writeId.work 0)) (writeTag.work 1)) = .ok .done (stage made) ∧
      (start.step (.append 1)).memory.Grows (stage made).memory ∧
      (start.step (.append 1)).isFull = false ∧ (start.step (.append 1)).hasKey 1 = true ∧
      (start.step (.append 1)).hasKey 7 = false := by
    refine ⟨_, rfl, _, _, rfl, rfl, rfl, rfl, ?_, ?_, ?_, ?_⟩ <;> decide +kernel
  let session := stage ⟨record, memory, [], []⟩
  let table : Table := { start.step (.append 1) with memory := session.memory }
  have staged : Staged indexOwner Layout.labelLayout
      [(3, .number 9), (1, .value writeTag.value), (0, .value writeId.value)] session :=
    .set (.written (.written (.made made) id) tag) rfl (by decide) turn
  have reached : start.Reached _ table := .beside (.step .made trivial) grows
  obtain ⟨-, entry⟩ := staged_record_appends Layout.label_built (by decide) indexOwner
  obtain ⟨shows, enters⟩ := entry _ session staged
  obtain ⟨position, value, key, placed, read, whole, copies⟩ :=
    enters _ 2 {} start created (by decide) _ table reached rfl
  have seven : key = 7 := by
    cases placed
    obtain ⟨held, seen, shown⟩ := shows 0 _ rfl
    cases seen.symm.trans read
    have same : value = .int64 7 := shown
    rw [same] at whole
    exact (Option.some.inj whole).symm
  subst seven
  obtain ⟨answered, heads, reads, sought, -⟩ := copies room absent
  refine ⟨_, session, start, table, _, staged, rfl, reached, rfl, present, answered, heads, ?_, ?_,
    sought⟩
  · obtain ⟨held, seen, shown⟩ := shows 1 _ rfl
    obtain ⟨same, likewise, copied⟩ := reads 1 _ rfl
    cases seen.symm.trans likewise
    exact ⟨_, copied, shown⟩
  · obtain ⟨held, seen, shown⟩ := shows 3 _ rfl
    obtain ⟨same, likewise, copied⟩ := reads 3 _ rfl
    cases seen.symm.trans likewise
    exact ⟨_, copied, shown.2⟩

end RecordStore
