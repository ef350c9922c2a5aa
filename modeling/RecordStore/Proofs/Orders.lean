import Mathlib.Data.List.Nodup
import RecordStore.Proofs.KnownRecords
import RecordStore.Proofs.Codes
import RecordStore.Proofs.Staging

namespace RecordStore.Workload

/-! ### The order book -/

def bookKey (i : Nat) : Int64 := (UInt64.ofNat i).toInt64

def bookKeys (count : Nat) : List Int64 := (List.range count).map bookKey

theorem book_key_injective {i j : Nat} (small : i < UInt64.size) (less : j < UInt64.size)
    (same : bookKey i = bookKey j) : i = j := by
  have words : UInt64.ofNat i = UInt64.ofNat j := congrArg Int64.toUInt64 same
  have numbers := congrArg UInt64.toNat words
  rw [UInt64.toNat_ofNat_of_lt' small, UInt64.toNat_ofNat_of_lt' less] at numbers
  exact numbers

theorem book_keys_length (count : Nat) : (bookKeys count).length = count := by
  rw [bookKeys, List.length_map, List.length_range]

theorem book_keys_succ (count : Nat) :
    bookKeys (count + 1) = bookKeys count ++ [bookKey count] := by
  rw [bookKeys, bookKeys, List.range_succ, List.map_append]
  rfl

theorem book_key_listed {count i : Nat} (few : i < count) :
    (bookKeys count)[i]? = some (bookKey i) := by
  rw [bookKeys, List.getElem?_map, List.getElem?_range few]
  rfl

theorem book_key_fresh {count i : Nat} (small : i < UInt64.size) (past : count ≤ i) :
    bookKey i ∉ bookKeys count := by
  intro member
  obtain ⟨j, few, same⟩ := List.mem_map.mp member
  have less := List.mem_range.mp few
  have equal := book_key_injective (Nat.lt_of_lt_of_le less (Nat.le_trans past small.le)) small same
  omega

structure Vacant (capacity : UInt64) (start : Table) : Prop where
  layout : start.layout = orderLayout
  position : start.keyPosition = 0
  limit : start.capacity = capacity
  spacing : start.slotStride = 48
  book : start.Book [] start {}
  quiet : ∀ notice ∈ start.notices, notice.rejects = false

theorem vacant_created {memory : Memory} {capacity : UInt64} {start : Table}
    (created : Table.create memory (some orderLayout) capacity {} = .ok start) :
    Vacant capacity start := by
  have wide : orderLayout.stride.toNat + (1 : UInt64).toNat < UInt64.size := by decide
  obtain ⟨_, same, made⟩ := Table.create_ok created
  cases same
  obtain ⟨slot, positioned, -⟩ := made.key
  refine ⟨made.shape, ?_, made.limit, made.spacing, ⟨Table.framed_refl start, ?_, rfl, ?_⟩, ?_⟩
  · have first : orderLayout.keyPosition? = some 0 := by decide
    exact Option.some.inj (positioned.symm.trans first)
  · exact Table.create_kept created order_packed wide
  · exact Notice.quiet_refl _
  · exact Table.create_quiet created

-- The machine gives out a block for so many orders, each of which takes 48 bytes.
def HasRoom (memory : Memory) (orders : Nat) : Prop := memory.Grants (48 * orders) 64

-- Why there is no book for so many orders: their bytes are more than a word counts, or more than the
-- machine has.
def roomFault (orders : UInt64) : Fault :=
  if UInt64.size ≤ 48 * orders.toNat then .capacityOverflow orders
  else blockFault (48 * orders.toNat) 64

theorem has_room_few {memory : Memory} {orders : Nat} (room : HasRoom memory orders) :
    48 * orders < 2 ^ 63 :=
  Nat.lt_of_le_of_lt (Nat.le_trans (size_le_rounded _ _) room) memory.limit.property.2

theorem order_spacing (capacity : UInt64) :
    capacity.toNat * (orderLayout.stride + ({} : TableOptions).slotPadding).toNat =
      48 * capacity.toNat := by
  have spacing : (orderLayout.stride + ({} : TableOptions).slotPadding).toNat = 48 := by decide
  rw [spacing, Nat.mul_comm]

theorem order_book_ends {α β : Type} {memory : Memory} {capacity : UInt64}
    {work : OrderFields → Table.Action α} {sum : α × Table → Except Fault β} {good : β → Prop}
    (post : Table → α → Table → Prop) (some_room : 1 ≤ capacity.toNat)
    (room : HasRoom memory capacity.toNat)
    (runs : ∀ start, Vacant capacity start → Runs (· = start) (work orderIds) (post start))
    (sums : ∀ start a after, Vacant capacity start → post start a after →
      ∃ b, sum (a, after) = .ok b ∧ good b) :
    ∃ b, (onOrderBook memory capacity work >>= sum) = .ok b ∧ good b := by
  have few := has_room_few room
  have nonzero : capacity ≠ 0 := by
    rintro rfl
    exact absurd some_room (by decide)
  obtain ⟨start, created⟩ := @Table.create_runs orderLayout _ memory capacity {} rfl rfl nonzero
    (by decide) (by decide)
    (by rw [order_spacing]; exact Nat.lt_trans few (by decide))
    (by rw [order_spacing]; exact room)
  have vacant := vacant_created created
  obtain ⟨a, after, ran, done⟩ := runs start vacant start rfl
  obtain ⟨b, summed, fine⟩ := sums start a after vacant done
  refine ⟨b, except_bind_ok.mpr ⟨(a, after), ?_, summed⟩, fine⟩
  rw [onOrderBook, order_built, ok_then, order_fields, ok_then, created, ok_then, ran]
  rfl

theorem order_book_refused {α : Type} {memory : Memory} {capacity : UInt64}
    (work : OrderFields → Table.Action α) (some_room : 1 ≤ capacity.toNat)
    (large : ¬ HasRoom memory capacity.toNat) :
    onOrderBook memory capacity work = .error (roomFault capacity) := by
  have failed : Table.create memory (some orderLayout) capacity {} = .error (roomFault capacity) := by
    cases made : Table.create memory (some orderLayout) capacity {} with
    | ok table =>
      obtain ⟨_, same, made⟩ := Table.create_ok made
      cases same
      have granted := made.granted
      rw [made.limit, made.spacing, order_spacing] at granted
      exact absurd granted large
    | error fault =>
      have refused := Table.create_fails (rfl : orderLayout.keySlot? = some _) rfl made
      rw [roomFault]
      cases refused with
      | empty none =>
        rw [none] at some_room
        exact absurd some_room (by decide)
      | unaligned _ unaligned => exact absurd unaligned (by decide)
      | unspaced _ _ none => exact absurd none (by decide)
      | tooLarge _ _ _ large =>
        rw [order_spacing] at large
        rw [if_pos large]
      | ungranted _ _ _ whole _ =>
        rw [order_spacing] at whole ⊢
        rw [if_neg (Nat.not_le.mpr whole)]
  rw [onOrderBook, order_built, ok_then, order_fields, ok_then, failed]
  rfl

/-! ### Turns -/

structure Shows (start : Table) (count field : Nat) (column : Nat → Option Value) (table : Table)
    (ledger : Ledger) : Prop where
  book : start.Book (bookKeys count) table ledger
  column : ∀ i value, column i = some value → table.Bears ledger i field value

def Shown (start : Table) (count field : Nat) (column : Nat → Option Value) (table : Table) :
    Prop := ∃ ledger, Shows start count field column table ledger

def Edited (start : Table) (count field : Nat) (column : Nat → Option Value) (i : Nat)
    (table : Table) : Prop :=
  ∃ ledger, Shows start count field column table ledger ∧ table.Opens ledger i

section Turn

variable {capacity : UInt64} {start : Table} {count field i : Nat} {column : Nat → Option Value}
  {slot : FieldSlot} {value : Value}

theorem edited_shown {table : Table} (edited : Edited start count field column i table) :
    Shown start count field column table := by
  obtain ⟨ledger, shows, -⟩ := edited
  exact ⟨ledger, shows⟩

theorem column_kept {table after : Table} {ledger later : Ledger}
    (shows : Shows start count field column table ledger)
    (bearing : table.Bearing ledger (fun _ => False) after later) :
    ∀ i value, column i = some value → after.Bears later i field value :=
  fun i value known => bearing i field value id (shows.column i value known)

theorem book_spacing (vacant : Vacant capacity start) {keys : List Int64} {table : Table}
    {ledger : Ledger} (book : start.Book keys table ledger) : table.slotStride.toNat = 48 := by
  rw [book.framed.slotStride, vacant.spacing]
  rfl

theorem vacant_key (vacant : Vacant capacity start) :
    ∃ slot, start.layout.fields[start.keyPosition]? = some slot ∧ slot.type = .int64 := by
  rw [vacant.layout, vacant.position]
  exact ⟨_, rfl, rfl⟩

theorem key_appended (vacant : Vacant capacity start) {keys : List Int64} {table : Table}
    {ledger : Ledger} {key : Int64} (book : start.Book keys table ledger)
    (room : keys.length < capacity.toNat) (fresh : key ∉ keys) :
    ∃ after later, Table.append key table = .ok true after ∧
      start.Book (keys ++ [key]) after later ∧ after.Opens later keys.length ∧
      table.Bearing ledger (fun _ => False) after later ∧
      after.snapshot = table.snapshot ∧ later.saved = ledger.saved := by
  obtain ⟨slot, known, integer⟩ := vacant_key vacant
  rw [← vacant.limit] at room
  refine Table.book_append book known ?_ room fresh
  rw [integer]
  trivial

theorem append_turn (vacant : Vacant capacity start) (room : count < capacity.toNat) :
    Runs (Shown start count field column) (appendNew (UInt64.ofNat count))
      fun _ => Edited start (count + 1) field column count := by
  rintro table ⟨ledger, shows⟩
  have length := book_keys_length count
  have small := Nat.lt_trans room capacity.toNat_lt
  obtain ⟨after, later, ran, booked, opens, bearing, -⟩ := key_appended vacant shows.book
    (by rw [length]; exact room) (book_key_fresh small (Nat.le_refl count))
  rw [← book_keys_succ] at booked
  rw [length] at opens
  exact ⟨⟨⟩, after, bind_ok ran, later, ⟨booked, column_kept shows bearing⟩, opens⟩

theorem put_turn (vacant : Vacant capacity start) {other : Nat} {later : Nat → Option Value}
    (known : orderLayout.fields[other]? = some slot) (takes : slot.Takes value)
    (agrees : ∀ j held, later j = some held → j ≠ i ∧ column j = some held ∨
      j = i ∧ other = field ∧ slot.attrs.unique = false ∧ held = value.stored) :
    Runs (Edited start count field column i) (put other value)
      fun _ => Edited start count field later i := by
  rintro table ⟨ledger, ⟨book, shown⟩, opens⟩
  rw [← vacant.layout] at known
  obtain ⟨after, ledger, ran, booked, opens, bearing, fresh⟩ :=
    Table.book_put book opens known takes
  refine ⟨⟨⟩, after, ran, ledger, ⟨booked, fun j held noted => ?_⟩, opens⟩
  rcases agrees j held noted with ⟨apart, before⟩ | ⟨rfl, rfl, common, rfl⟩
  · exact bearing j field held apart (shown j held before)
  · exact fresh common

theorem seek_turn {table : Table} (few : i < count) (shown : Shown start count field column table) :
    ∃ after, Table.seekKey (bookKey i) table = .ok true after ∧
      Edited start count field column i after := by
  obtain ⟨ledger, shows⟩ := shown
  obtain ⟨after, later, ran, booked, opens, bearing⟩ :=
    Table.book_seek shows.book (book_key_listed few)
  exact ⟨after, ran, later, ⟨booked, column_kept shows bearing⟩, opens⟩

theorem vacant_shown (vacant : Vacant capacity start) {table : Table} (same : table = start)
    (unknown : ∀ i, column i = none) : Shown start 0 field column table := by
  subst same
  exact ⟨{}, vacant.book, fun i value noted => by rw [unknown] at noted; cases noted⟩

def filled (count : Nat) (value : Value) (i : Nat) : Option Value :=
  if i < count then some value else none

theorem fill_runs (vacant : Vacant capacity start) (known : orderLayout.fields[field]? = some slot)
    (takes : slot.Takes value) (common : slot.attrs.unique = false)
    (room : count ≤ capacity.toNat) :
    Runs (· = start) (each count fun i => do
      appendNew i
      put field value) fun _ => Shown start count field (filled count value.stored) := by
  have turn : ∀ i < count, Runs (Shown start i field (filled i value.stored))
      (appendNew (UInt64.ofNat i) >>= fun _ => put field value)
        fun _ => Shown start (i + 1) field (filled (i + 1) value.stored) := by
    intro i few
    refine runs_bind (append_turn vacant (Nat.lt_of_lt_of_le few room)) fun _ => ?_
    refine runs_imp (put_turn vacant known takes ?_) fun _ _ => edited_shown
    intro j held noted
    obtain ⟨less, same⟩ := Option.ite_none_right_eq_some.mp noted
    cases same
    rcases Nat.lt_succ_iff_lt_or_eq.mp less with before | rfl
    · exact .inl ⟨Nat.ne_of_lt before, if_pos before⟩
    · exact .inr ⟨rfl, rfl, common, rfl⟩
  intro table same
  exact runs_each (fun i => Shown start i field (filled i value.stored)) count turn table
    (vacant_shown vacant same fun i => if_neg (Nat.not_lt_zero i))

end Turn

/-! ### Workloads -/

def unknown : Nat → Option Value := fun _ => none

section Ends

variable {capacity : UInt64} {start table : Table} {count field : Nat}
  {column : Nat → Option Value}

theorem shown_count (shown : Shown start count field column table) :
    table.contents.count.toNat = count := by
  obtain ⟨ledger, book, -⟩ := shown
  rw [(Table.book_tallied book).count, book_keys_length]

theorem shown_quiet (vacant : Vacant capacity start)
    (shown : Shown start count field column table) :
    ∀ notice ∈ table.notices, notice.rejects = false := by
  obtain ⟨ledger, book, -⟩ := shown
  intro notice member
  by_contra rejects
  have before := book.quiet notice member (Bool.of_not_eq_false rejects)
  exact rejects (vacant.quiet notice before)

theorem put_unknown (vacant : Vacant capacity start) {i : Nat} (other : Nat)
    {slot : FieldSlot} {value : Value} (known : orderLayout.fields[other]? = some slot)
    (takes : slot.Takes value) :
    Runs (Edited start count 0 unknown i) (put other value)
      fun _ => Edited start count 0 unknown i :=
  put_turn vacant known takes nofun

theorem put_code (vacant : Vacant capacity start) {i j : Nat} (small : j < 10 ^ 9) :
    Runs (Edited start count 0 unknown i)
      (put orderIds.code (.text (utf8 (orderCode (UInt64.ofNat j)))))
      fun _ => Edited start count 0 unknown i := by
  refine put_unknown vacant 3 rfl ⟨rfl, rfl, rfl, ?_⟩
  have number : (UInt64.ofNat j).toNat < 10 ^ 9 :=
    Nat.lt_of_le_of_lt (Nat.mod_le j (2 ^ 64)) small
  rw [Value.overflow?, (code_length_iff _).mpr number]
  rfl

theorem turns_run (vacant : Vacant capacity start) {work : UInt64 → Table.Action Unit}
    (turn : ∀ i < count, Runs (Shown start i 0 unknown) (work (UInt64.ofNat i))
      fun _ => Shown start (i + 1) 0 unknown) :
    Runs (· = start) (each count work) fun _ => Shown start count 0 unknown := by
  intro table same
  exact runs_each (fun i => Shown start i 0 unknown) count turn table
    (vacant_shown vacant same fun _ => rfl)

theorem append_order (vacant : Vacant capacity start) (room : count < capacity.toNat)
    (small : count < 10 ^ 9) :
    Runs (Shown start count 0 unknown) (appendOrder orderIds (UInt64.ofNat count))
      fun _ => Shown start (count + 1) 0 unknown := by
  refine runs_bind (append_turn vacant room) fun _ => ?_
  refine runs_bind (put_unknown vacant 1 rfl ⟨rfl, rfl, rfl, rfl⟩) fun _ => ?_
  refine runs_bind (put_unknown vacant 2 rfl ⟨rfl, rfl, rfl, rfl⟩) fun _ => ?_
  refine runs_bind (put_code vacant small) fun _ => ?_
  refine runs_bind (put_unknown vacant 4 rfl ⟨rfl, rfl, rfl, rfl⟩) fun _ => ?_
  exact runs_imp (put_unknown vacant 5 rfl ⟨rfl, rfl, rfl, rfl⟩)
    fun _ _ => edited_shown

end Ends

theorem append_ends {memory : Memory} {count : UInt64} (some_orders : 1 ≤ count.toNat)
    (few : count.toNat ≤ 10 ^ 9) (room : HasRoom memory count.toNat) :
    ∃ table, append memory count = .ok table ∧ table.contents.count = count ∧
      ∀ notice ∈ table.notices, notice.rejects = false := by
  rw [append]
  refine order_book_ends (fun start _ => Shown start count.toNat 0 unknown) some_orders room ?_ ?_
  · intro start vacant
    exact turns_run vacant fun i less => append_order vacant less (Nat.lt_of_lt_of_le less few)
  · intro start _ table vacant shown
    exact ⟨table, rfl, UInt64.toNat_inj.mp (shown_count shown), shown_quiet vacant shown⟩

section Index

variable {capacity : UInt64} {start : Table} {count : Nat}

def finalPrice (i : Nat) : Int64 := (1000 + UInt64.ofNat i % 64).toInt64

theorem final_price_first {i : Nat} (small : i < UInt64.size) :
    Value.int64 (finalPrice i) = .int64 1000 ↔ i % 64 = 0 := by
  have number : (1000 + UInt64.ofNat i % 64).toNat = 1000 + i % 64 := by
    have rest := Nat.mod_lt i (show 0 < 64 by decide)
    rw [UInt64.toNat_add, UInt64.toNat_mod, UInt64.toNat_ofNat_of_lt' small]
    change (1000 + i % 64) % 2 ^ 64 = 1000 + i % 64
    omega
  constructor
  · intro same
    have words : 1000 + UInt64.ofNat i % 64 = 1000 :=
      congrArg Int64.toUInt64 (Value.int64.inj same)
    rw [words] at number
    change 1000 = 1000 + i % 64 at number
    omega
  · intro first
    have words : 1000 + UInt64.ofNat i % 64 = 1000 := by
      rw [← UInt64.toNat_inj, number, first]
      rfl
    rw [finalPrice, words]
    rfl

def priced (count i j : Nat) : Option Value :=
  if j < i then some (.int64 (finalPrice j)) else filled count (.int64 1000) j

theorem price_turn (vacant : Vacant capacity start) {i : Nat} (few : i < count) :
    Runs (Shown start count 2 (priced count i))
      (do
        if ← Table.seekKey (UInt64.ofNat i).toInt64 then
          put orderIds.price (.int64 (1000 + UInt64.ofNat i % 64).toInt64)
        else throw (.appendRefused (UInt64.ofNat i).toInt64))
      fun _ => Shown start count 2 (priced count (i + 1)) := by
  intro table shown
  obtain ⟨found, ran, edited⟩ := seek_turn few shown
  obtain ⟨_, after, wrote, done⟩ := @put_turn _ _ _ 2 i _ _ (.int64 (finalPrice i)) vacant 2
    (priced count (i + 1)) rfl ⟨rfl, rfl, rfl, rfl⟩ (by
      intro j held noted
      rw [priced] at noted ⊢
      rcases Nat.lt_trichotomy j i with before | rfl | behind
      · rw [if_pos (Nat.lt_succ_of_lt before)] at noted
        rw [if_pos before]
        exact .inl ⟨Nat.ne_of_lt before, noted⟩
      · rw [if_pos (Nat.lt_succ_self j)] at noted
        cases noted
        exact .inr ⟨rfl, rfl, rfl, rfl⟩
      · rw [if_neg (by omega)] at noted
        rw [if_neg (by omega)]
        exact .inl ⟨Nat.ne_of_gt behind, noted⟩) found edited
  exact ⟨⟨⟩, after, (bind_ok ran).trans wrote, edited_shown done⟩

theorem multiples_listed {offsets : List UInt64} (distinct : offsets.Nodup)
    (small : 48 * count < UInt64.size) (listed : ∀ offset, offset ∈ offsets ↔
      ∃ i < count, offset.toNat = i * 48 ∧ i % 64 = 0) :
    offsets.length = (count + 63) / 64 := by
  let multiples := (List.range ((count + 63) / 64)).map fun m => UInt64.ofNat (m * 64 * 48)
  have number {m : Nat} (few : m < (count + 63) / 64) :
      (UInt64.ofNat (m * 64 * 48)).toNat = m * 64 * 48 := UInt64.toNat_ofNat_of_lt' (by omega)
  have once : multiples.Nodup := by
    refine List.Nodup.map_on (fun m few k less same => ?_) List.nodup_range
    have numbers := congrArg UInt64.toNat same
    rw [number (List.mem_range.mp few), number (List.mem_range.mp less)] at numbers
    omega
  have among : ∀ offset, offset ∈ offsets ↔ offset ∈ multiples := by
    intro offset
    rw [listed, List.mem_map]
    constructor
    · rintro ⟨i, few, position, multiple⟩
      have less : i / 64 < (count + 63) / 64 := by omega
      refine ⟨i / 64, List.mem_range.mpr less, UInt64.toNat_inj.mp ?_⟩
      rw [number less, position]
      omega
    · rintro ⟨m, few, rfl⟩
      have less := List.mem_range.mp few
      exact ⟨m * 64, by omega, number less, Nat.mul_mod_left m 64⟩
  have same := (List.perm_ext_iff_of_nodup distinct once).mpr among
  rw [same.length_eq, List.length_map, List.length_range]

theorem price_listed {capacity : UInt64} (vacant : Vacant capacity start) {table : Table}
    (small : 48 * count < UInt64.size) (shown : Shown start count 2 (priced count count) table) :
    ∃ offsets, table.withValue orderIds.price (.int64 1000) = .ok offsets ∧
      offsets.length = (count + 63) / 64 := by
  obtain ⟨ledger, book, column⟩ := shown
  have known : start.layout.fields[2]? = orderLayout.fields[2]? := by rw [vacant.layout]
  have spacing := book_spacing vacant book
  obtain ⟨offsets, found, distinct, listed⟩ := @Table.book_lists _ _ _ _ book 2 _ known rfl
    (fun i => .int64 (finalPrice i)) (fun i few => column i _ (if_pos (by
      rw [book_keys_length] at few
      exact few))) (.int64 1000)
  refine ⟨offsets, found, multiples_listed distinct small fun offset => ?_⟩
  rw [listed, spacing, book_keys_length]
  have exact_when (i : Nat) (few : i < count) :=
    @final_price_first i (by omega)
  exact exists_congr fun i => and_congr_right fun few =>
    and_congr_right fun _ => exact_when i few

end Index

theorem index_ends {memory : Memory} {count : UInt64} (some_orders : 1 ≤ count.toNat)
    (room : HasRoom memory count.toNat) :
    ∃ offsets, index memory count = .ok offsets ∧ offsets.length = (count.toNat + 63) / 64 := by
  rw [index]
  refine order_book_ends (fun _ offsets _ => offsets.length = (count.toNat + 63) / 64) some_orders
    room (fun start vacant => ?_) fun _ offsets _ _ length => ⟨offsets, rfl, length⟩
  refine runs_bind (fill_runs vacant rfl ⟨rfl, rfl, rfl, rfl⟩ rfl (Nat.le_refl _)) fun _ => ?_
  refine runs_bind (runs_each (fun i => Shown start count.toNat 2 (priced count.toNat i))
    count.toNat fun i less => price_turn vacant less) fun _ => ?_
  intro table shown
  obtain ⟨offsets, found, length⟩ :=
    price_listed vacant (Nat.lt_trans (has_room_few room) (by decide)) shown
  refine ⟨offsets, table, ?_, length⟩
  rw [get_bind, attempt_outcome, found]
  rfl

section Iterate

variable {capacity : UInt64} {start : Table} {count : Nat}

def Passing (start : Table) (count i : Nat) (table : Table) : Prop :=
  ∃ ledger, Shows start count 1 (filled count (.int32 1)) table ledger ∧
    table.ahead.toNat = i * table.slotStride.toNat

theorem rewind_turn : Runs (Shown start count 1 (filled count (.int32 1))) Table.rewind
    fun _ => Passing start count 0 := by
  rintro table ⟨ledger, shows⟩
  obtain ⟨after, later, ran, booked, front, bearing⟩ := Table.book_rewind shows.book
  refine ⟨⟨⟩, after, ran, later, ⟨booked, column_kept shows bearing⟩, ?_⟩
  rw [front, Nat.zero_mul]
  rfl

theorem passing_more (vacant : Vacant capacity start)
    (spare : 48 * (capacity.toNat + 1) < UInt64.size) {i : Nat} {table : Table} (few : i ≤ count)
    (passing : Passing start count i table) : table.hasMore = decide (i < count) := by
  obtain ⟨ledger, shows, position⟩ := passing
  have book := shows.book
  have formed := book.kept.upheld.formed
  have total := shown_count ⟨ledger, shows⟩
  have spacing := book_spacing vacant book
  have limit : table.capacity = capacity := by rw [book.framed.capacity, vacant.limit]
  rw [Table.more_at formed (by rw [total]; exact few) position, total]
  rw [formed.size, limit, spacing]
  omega

theorem next_turn (vacant : Vacant capacity start) {i : Nat} (few : i < count) {table : Table}
    (passing : Passing start count i table) :
    ∃ after, Table.next table = .ok ⟨⟩ after ∧ Passing start count (i + 1) after ∧
      Table.onWalker (Session.ask fun cursor memory => cursor.readAs memory .int32 1) after =
        .ok (.int32 1) after := by
  obtain ⟨ledger, shows, position⟩ := passing
  have known : start.layout.fields[1]? = orderLayout.fields[1]? := by rw [vacant.layout]
  obtain ⟨after, later, ran, booked, passes, ahead, bearing⟩ :=
    Table.book_next shows.book (by rw [book_keys_length]; exact few) position
  have shown := column_kept shows bearing
  exact ⟨after, ran, ⟨later, ⟨booked, shown⟩, ahead⟩,
    Table.book_reads booked passes known (shown i _ (if_pos few))⟩

-- By induction on the fuel, which outlasts the records that are left: the total is the number of
-- records gone through.
theorem sum_runs (vacant : Vacant capacity start) (spare : 48 * (capacity.toNat + 1) < UInt64.size)
    (most : count ≤ capacity.toNat) (fuel i : Nat) (few : i ≤ count) (lasts : count < fuel + i)
    (total : Int64) (so_far : total.toInt = i) :
    Runs (Passing start count i) (sumRecords 1 fuel total) fun sum _ => sum.toInt = count := by
  induction fuel generalizing i total with
  | zero => omega
  | succ fuel ih =>
    intro table passing
    have more := passing_more vacant spare few passing
    rw [sumRecords, get_bind, more]
    by_cases left : i < count
    · obtain ⟨after, ran, passed, read⟩ := next_turn vacant left passing
      have one : (1 : Int64).toInt = 1 := rfl
      have words : UInt64.size = 2 ^ 64 := rfl
      have next : (total + 1).toInt = (i + 1 : Nat) := by
        rw [Int64.toInt_add, so_far, one, Int.bmod_eq_of_le (by omega) (by omega)]
        omega
      obtain ⟨sum, last, summed, whole⟩ := ih (i + 1) left (by omega) (total + 1) next after passed
      refine ⟨sum, last, ?_, whole⟩
      rw [decide_eq_true left, if_pos rfl, bind_ok ran, bind_ok read]
      exact summed
    · refine ⟨total, table, ?_, ?_⟩
      · rw [decide_eq_false left, if_neg Bool.false_ne_true]
        rfl
      · change total.toInt = count
        rw [so_far]
        omega

end Iterate

theorem iterate_ends {memory : Memory} {count : UInt64} (some_orders : 1 ≤ count.toNat)
    (room : HasRoom memory count.toNat) :
    ∃ total, iterate memory count = .ok total ∧ total.toInt = count.toNat := by
  have few := has_room_few room
  -- The walk looks one order past the last one, which is still in reach.
  have spare : 48 * (count.toNat + 1) < UInt64.size := by
    have words : UInt64.size = 2 ^ 64 := rfl
    omega
  rw [iterate]
  refine order_book_ends (fun _ (total : Int64) _ => total.toInt = count.toNat) some_orders
    room (fun start vacant => ?_) fun _ total _ _ whole => ⟨total, rfl, whole⟩
  refine runs_bind (fill_runs vacant rfl ⟨rfl, rfl, rfl, rfl⟩ rfl (Nat.le_refl _)) fun _ => ?_
  refine runs_bind rewind_turn fun _ => ?_
  intro table passing
  obtain ⟨ledger, shows, -⟩ := id passing
  have fuel : table.contents.count.toNat = count.toNat := shown_count ⟨ledger, shows⟩
  rw [get_bind, fuel]
  exact sum_runs vacant spare (Nat.le_refl _) (count.toNat + 1) 0 (Nat.zero_le _) (by omega) 0 rfl
    table passing

section Sequence

variable {layout : Layout} {memory : Memory} {cursor : Cursor} {place : Place} {id : Nat}
  {slot : FieldSlot}

-- By induction on the turns: the sequence holds what it held and one more for each of them, and the
-- last turn answered that.
theorem advances_run (packed : layout.Packed) (stands : cursor.On layout memory place)
    (counts : cursor.Counts id place slot) {held : Int64}
    (holds : slot.type.signed? (place.contentOf memory slot) = some held) (first : Int64)
    (count : Nat) : ∃ last now after, (List.range count).foldlM
        (fun (_, memory) _ => cursor.advance memory id) (first, memory) = .ok (last, after) ∧
      cursor.On layout after place ∧ slot.type.signed? (place.contentOf after slot) = some now ∧
      now.toInt = (held.toInt + count).bmod (2 ^ (8 * slot.length.toNat)) ∧
      (0 < count → last = now) := by
  have known : layout.fields[id]? = some slot := by rw [← stands.shape, counts.field]
  have sized := packed.sized id slot known
  obtain ⟨integer, -⟩ := packed.counter id slot known counts.sequence
  induction count with
  | zero =>
    refine ⟨first, held, memory, rfl, stands, holds, ?_, nofun⟩
    obtain ⟨same, found, wraps⟩ := signed_wraps sized integer (place.contentOf memory slot)
    cases found.symm.trans holds
    rw [Int.natCast_zero, Int.add_zero, wraps, Int.bmod_bmod]
  | succ count ih =>
    obtain ⟨last, now, mid, ran, here, shows, wraps, -⟩ := ih
    obtain ⟨n, next, signed, advanced⟩ := Cursor.advance_adds packed here counts shows
    refine ⟨n, n, place.buffer.poke mid (place.ofSlot slot)
      (encodeLE slot.length.toNat (decodeLE (place.contentOf mid slot) + 1)), ?_,
      on_alike here (View.poke_alike _ _ _ _), ?_, ?_, fun _ => rfl⟩
    · rw [List.range_succ, List.foldlM_append, ran, ok_then, List.foldlM_cons]
      exact except_bind_ok.mpr ⟨_, advanced, rfl⟩
    · let session : Session Unit := ⟨cursor, mid, (), []⟩
      have fresh := @Session.poked_content _ _ _ session _ _ packed known here _
        (encode_le_length slot.length.toNat (decodeLE (place.contentOf mid slot) + 1))
      exact (congrArg slot.type.signed? fresh).trans signed
    · rw [next, wraps, Int.bmod_add_bmod, Int.natCast_succ, Int.add_assoc]

end Sequence

theorem sequence_ends {memory : Memory} {count : UInt64} (some_turns : 1 ≤ count.toNat)
    (few : count.toNat < 2 ^ 31 - 1) :
    ∃ last, sequence memory count = .ok last ∧ last.toInt = count.toNat + 1 := by
  obtain ⟨cursor, begun, place, held, made, -, writable, carries, shows⟩ :=
    standalone_carries order_packed (by decide) memory
  obtain ⟨slot, known, version⟩ : ∃ slot, orderLayout.fields[6]? = some slot ∧
      slot.attrs = { sequence := true } ∧ slot.type = .int32 ∧ slot.length = 4 :=
    ⟨_, rfl, rfl, rfl, rfl⟩
  obtain ⟨attrs, type, length⟩ := version
  have counts : cursor.Counts 6 place slot := by
    refine ⟨carries.stands.placed, ?_, ?_, writable, ?_⟩
    · rw [carries.stands.shape]
      exact known
    · rw [attrs]
    · rw [attrs]
      rfl
  have one : slot.type.signed? (place.contentOf begun slot) = some 1 := by
    have first := shows 6 slot known
    rw [FieldSlot.Shows, attrs] at first
    rw [FieldType.signed?, carries.fields 6 slot known]
    exact first.2
  obtain ⟨last, now, after, ran, -, -, wraps, same⟩ :=
    advances_run order_packed carries.stands counts one 0 count.toNat
  refine ⟨last, ?_, ?_⟩
  · rw [sequence, order_built, ok_then, order_fields, ok_then, made, ok_then]
    exact except_bind_ok.mpr ⟨_, ran, rfl⟩
  · have start : (1 : Int64).toInt = 1 := rfl
    have width : 2 ^ (8 * slot.length.toNat) = 2 ^ 32 := by rw [length]; rfl
    rw [same some_turns, wraps, start, width, Int.bmod_eq_of_le (by omega) (by omega)]
    omega

section Transaction

variable {capacity : UInt64} {start : Table} {count : Nat}

theorem round_turn (vacant : Vacant capacity start) {i : Nat} (past : count ≤ i)
    (room : i < capacity.toNat) : Runs (Shown start count 0 unknown)
      (do
        Table.begin
        let _ ← Table.append (bookKey i)
        let _ ← Table.rollback)
      fun _ => Shown start count 0 unknown := by
  rintro table ⟨ledger, book, -⟩
  have transactional : start.layout.transactional = true := by
    rw [vacant.layout]
    rfl
  obtain ⟨begun, noted, beginning, book, marked⟩ := Table.book_begin book transactional
  obtain ⟨grown, entered, appending, book, -, -, snapshot, saved⟩ :=
    key_appended vacant book (by rw [book_keys_length]; omega)
      (book_key_fresh (Nat.lt_trans room capacity.toNat_lt) past)
  have kept : grown.Marked entered (bookKeys count) :=
    ⟨by rw [snapshot]; exact marked.snapshot, by rw [saved]; exact marked.saved⟩
  obtain ⟨after, later, undoing, book⟩ := Table.book_rollback book kept
  refine ⟨⟨⟩, after, ?_, later, book, nofun⟩
  rw [bind_ok beginning, bind_ok appending, bind_ok undoing]
  rfl

theorem code_turn (vacant : Vacant capacity start) (room : count < capacity.toNat)
    (small : count < 10 ^ 9) : Runs (Shown start count 0 unknown)
      (do
        appendNew (UInt64.ofNat count)
        put orderIds.code (.text (utf8 (orderCode (UInt64.ofNat count)))))
      fun _ => Shown start (count + 1) 0 unknown :=
  runs_bind (append_turn vacant room) fun _ =>
    runs_imp (put_code vacant small) fun _ _ => edited_shown

end Transaction

theorem transaction_ends {memory : Memory} {count rounds : UInt64}
    (some_orders : 1 ≤ count.toNat) (few : count.toNat ≤ 10 ^ 9)
    (room : HasRoom memory (count.toNat + rounds.toNat)) :
    ∃ table, transaction memory count rounds = .ok table ∧ table.contents.count = count ∧
      ∀ notice ∈ table.notices, notice.rejects = false := by
  have words : UInt64.size = 2 ^ 64 := rfl
  have bound := has_room_few room
  have capacity : (count + rounds).toNat = count.toNat + rounds.toNat := by
    rw [UInt64.toNat_add]
    omega
  rw [transaction]
  refine order_book_ends (fun start _ => Shown start count.toNat 0 unknown) (by omega)
    (by rw [capacity]; exact room) (fun start vacant => ?_) ?_
  · refine runs_bind (turns_run vacant fun i less => code_turn vacant (by omega) (by omega))
      fun _ => ?_
    refine runs_each (fun _ => Shown start count.toNat 0 unknown) rounds.toNat fun r less => ?_
    have key : (count + UInt64.ofNat r).toInt64 = bookKey (count.toNat + r) := by
      rw [bookKey, UInt64.ofNat_add, UInt64.ofNat_toNat]
    rw [key]
    exact round_turn vacant (Nat.le_add_right _ _) (by omega)
  · intro start _ table vacant shown
    exact ⟨table, rfl, UInt64.toNat_inj.mp (shown_count shown), shown_quiet vacant shown⟩

def fourGigabytes : Memory := ⟨#[], 4294967296, by decide⟩

end RecordStore.Workload
