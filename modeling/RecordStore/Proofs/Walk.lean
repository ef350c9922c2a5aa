import RecordStore.Proofs.Lockstep
import RecordStore.Proofs.Regular

namespace RecordStore

-- Where the records were put, the oldest first, as they are now and as they were when a transaction
-- began; and how the walker was handed out since the walk was last started.
structure Trail where
  laid : List Place := []
  saved : Option (List Place) := none
  seen : List Cursor := []

def Trail.note (trail : Trail) (after : Table) :
    TableOperation → Except Fault TableAnswer → Trail
  | .append _, .ok (.truth true) | .appendCopy .., .ok (.truth true) =>
    { trail with laid := trail.laid ++ after.finder.place.toList }
  | .begin, .ok _ => { trail with saved := some trail.laid }
  | .commit, .ok _ => { trail with saved := none }
  | .rollback, .ok (.truth true) =>
    { trail with laid := trail.saved.getD trail.laid, saved := none }
  | .next, .ok _ => { trail with seen := trail.seen ++ [after.walker] }
  | .rewind, .ok _ => { trail with seen := [] }
  | _, _ => trail

def Table.trail (table : Table) (trail : Trail) : List TableOperation → Trail
  | [] => trail
  | operation :: rest =>
    let after := table.step operation
    after.trail (trail.note after operation (table.answer operation)) rest

namespace Trail

variable {trail : Trail} {before after : Table} {operation : TableOperation} {fault : Fault}
  {answer : Except Fault TableAnswer}

theorem note_error : trail.note after operation (.error fault) = trail := by
  cases operation <;> rfl

theorem note_refused (reason : before.Refuses operation) :
    trail.note after operation (.ok (.truth false)) = trail := by
  cases operation with
  | begin | commit | next | rewind => exact reason.elim
  | _ => rfl

theorem note_asked (asks : operation.asks = true) : trail.note after operation answer = trail := by
  cases operation with
  | hasKey | offsetOfIndex | withValue | hasMore => rfl
  | _ => cases asks

theorem note_sought (seeks : operation.seeks = true) :
    trail.note after operation answer = trail := by
  cases operation with
  | seekKey | seekIndex | seekOffset => rfl
  | _ => cases seeks

theorem note_walked {answer : TableAnswer} :
    (trail.note after .next (.ok answer)).seen = trail.seen ++ [after.walker] := rfl

theorem note_undone : (trail.note after .rollback (.ok (.truth true))).laid =
    trail.saved.getD trail.laid := rfl

end Trail

namespace Table

theorem trail_append (table : Table) (trail : Trail) (earlier later : List TableOperation) :
    table.trail trail (earlier ++ later) =
      (table.after earlier).trail (table.trail trail earlier) later := by
  induction earlier generalizing table trail with
  | nil => rfl
  | cons operation rest ih => exact ih (table.step operation) _

def AtSlot (table : Table) (i : Nat) (place : Place) : Prop :=
  place.buffer = table.buffer ∧ place.offset.toNat = i * table.slotStride.toNat

structure Laid (table : Table) (contents : Contents) (laid : List Place) : Prop where
  count : laid.length = contents.count.toNat
  place : ∀ (i : Nat) (place : Place), laid[i]? = some place → table.AtSlot i place

structure Recorded (table : Table) (trail : Trail) : Prop where
  now : table.Laid table.contents trail.laid
  saved : ∀ (bytes : Bytes) (contents : Contents), table.snapshot = some (bytes, contents) →
    ∃ laid, trail.saved = some laid ∧ table.Laid contents laid

structure Walking (table : Table) (seen : List Cursor) : Prop where
  ahead : table.ahead.toNat = seen.length * table.slotStride.toNat
  few : seen.length ≤ table.contents.count.toNat
  visit : ∀ (i : Nat) (cursor : Cursor), seen[i]? = some cursor →
    cursor.keyLocked = true ∧ ∃ place, cursor.place = some place ∧ table.AtSlot i place

theorem at_slot_unique {table : Table} {i : Nat} {one other : Place} (here : table.AtSlot i one)
    (there : table.AtSlot i other) : one = other := by
  obtain ⟨buffer, offset⟩ := one
  obtain ⟨same, position⟩ := other
  cases here.1.trans there.1.symm
  cases UInt64.toNat_inj.mp (here.2.trans there.2.symm)
  rfl

section Step

variable {before after : Table} {operation : TableOperation} {answer : Except Fault TableAnswer}
  {trail : Trail}

theorem laid_next (formed : before.Formed) (room : before.isFull = false) {laid : List Place}
    (held : before.Laid before.contents laid) (indexes : List ValueIndex) (key : Int64) :
    before.Laid (before.contents.enter indexes key before.slotStride)
      (laid ++ [⟨before.buffer, before.contents.nextFree⟩]) := by
  refine ⟨?_, fun i place listed => ?_⟩
  · rw [List.length_append, held.count]
    exact (count_next room).symm
  · rcases snoc_get.mp listed with old | ⟨rfl, rfl⟩
    · exact held.place i place old
    · refine ⟨rfl, ?_⟩
      rw [held.count]
      exact formed.counted.next

theorem laid_framed (framed : before.Framed after) {contents : Contents} {laid : List Place}
    (held : before.Laid contents laid) : after.Laid contents laid := by
  refine ⟨held.count, fun i place listed => ?_⟩
  rw [AtSlot, framed.buffer, framed.slotStride]
  exact held.place i place listed

theorem step_laid (formed : before.Formed) (recorded : before.Recorded trail)
    (step : Step before operation answer after) :
    before.Laid after.contents (trail.note after operation answer).laid ∧
      ∀ (bytes : Bytes) (contents : Contents), after.snapshot = some (bytes, contents) →
        ∃ laid, (trail.note after operation answer).saved = some laid ∧
          before.Laid contents laid := by
  obtain ⟨now, saved⟩ := recorded
  cases step with
  | failed | stuck =>
    rw [Trail.note_error]
    exact ⟨now, saved⟩
  | refused reason =>
    rw [Trail.note_refused reason]
    exact ⟨now, saved⟩
  | asked asks =>
    rw [Trail.note_asked asks]
    exact ⟨now, saved⟩
  | found target =>
    rw [Trail.note_sought (target_seeks target)]
    exact ⟨now, saved⟩
  | appended room | copied room => exact ⟨laid_next formed room now _ _, saved⟩
  | begun =>
    refine ⟨now, ?_⟩
    rintro bytes contents ⟨⟩
    exact ⟨trail.laid, rfl, now⟩
  | committed => exact ⟨now, nofun⟩
  | undone back =>
    obtain ⟨laid, same, held⟩ := saved _ _ back
    refine ⟨?_, nofun⟩
    rw [Trail.note_undone, same]
    exact held
  -- The contents of the table are the same but for the indexes.
  | _ => exact ⟨⟨now.count, now.place⟩, saved⟩

theorem step_recorded (formed : before.Formed) (recorded : before.Recorded trail)
    (step : Step before operation answer after) :
    after.Recorded (trail.note after operation answer) := by
  have framed := step_framed step
  obtain ⟨now, saved⟩ := step_laid formed recorded step
  refine ⟨laid_framed framed now, fun bytes contents back => ?_⟩
  obtain ⟨laid, same, held⟩ := saved bytes contents back
  exact ⟨laid, same, laid_framed framed held⟩

theorem count_grows (forward : operation ≠ .rollback) (step : Step before operation answer after) :
    before.contents.count.toNat ≤ after.contents.count.toNat := by
  cases step with
  | appended room | copied room =>
    rw [Contents.enter, Contents.register]
    dsimp only
    rw [count_next room]
    exact Nat.le_succ _
  | undone => exact absurd rfl forward
  | _ => exact Nat.le_refl _

theorem walking_next (formed : before.Formed) (walking : before.Walking trail.seen)
    (more : before.hasMore = true)
    (room : before.ahead.toNat + before.layout.stride.toNat ≤ before.buffer.size.toNat) :
    trail.seen.length < before.contents.count.toNat := by
  have aligned : ∃ i ≤ before.capacity.toNat, before.ahead.toNat = i * before.slotStride.toNat :=
    ⟨_, Nat.le_trans walking.few formed.counted.count, walking.ahead⟩
  have occupied := ahead_occupied formed aligned more room
  obtain ⟨i, few, position⟩ := (formed.counted.occupied _).mp occupied
  rw [walking.ahead] at position
  rw [Nat.eq_of_mul_eq_mul_right (stride_positive formed) position]
  exact few

theorem step_walking (formed : before.Formed) (walking : before.Walking trail.seen)
    (forward : operation ≠ .rollback) (step : Step before operation answer after) :
    after.Walking (trail.note after operation answer).seen := by
  have grows := count_grows forward step
  obtain ⟨ahead, few, visit⟩ := walking
  have stays := Nat.le_trans few grows
  cases step with
  | failed | stuck =>
    rw [Trail.note_error]
    exact ⟨ahead, stays, visit⟩
  | refused reason =>
    rw [Trail.note_refused reason]
    exact ⟨ahead, stays, visit⟩
  | asked asks =>
    rw [Trail.note_asked asks]
    exact ⟨ahead, stays, visit⟩
  | found target =>
    rw [Trail.note_sought (target_seeks target)]
    exact ⟨ahead, stays, visit⟩
  | walked more room =>
    have below := walking_next formed ⟨ahead, few, visit⟩ more room
    have next := ahead_next formed (Nat.lt_of_lt_of_le below formed.counted.count) ahead
    refine ⟨?_, ?_, fun i cursor listed => ?_⟩
    · rw [Trail.note_walked, List.length_append]
      exact next
    · rw [Trail.note_walked, List.length_append]
      exact below
    · rcases snoc_get.mp listed with old | ⟨rfl, rfl⟩
      · exact visit i cursor old
      · exact ⟨rfl, _, rfl, rfl, ahead⟩
  | rewound => exact ⟨(Nat.zero_mul _).symm, Nat.zero_le _, nofun⟩
  | undone => exact absurd rfl forward
  | _ => exact ⟨ahead, stays, visit⟩

end Step

section Run

variable {table : Table} {trail : Trail}

theorem after_recorded (operations : List TableOperation) (formed : table.Formed)
    (recorded : table.Recorded trail) :
    (table.after operations).Recorded (table.trail trail operations) := by
  induction operations generalizing table trail with
  | nil => exact recorded
  | cons operation rest ih =>
    exact ih (step_formed table operation formed)
      (step_recorded formed recorded (step_cases formed operation))

theorem after_walking (operations : List TableOperation) (formed : table.Formed)
    (walking : table.Walking trail.seen)
    (forward : ∀ operation ∈ operations, operation ≠ .rollback) :
    (table.after operations).Walking (table.trail trail operations).seen := by
  induction operations generalizing table trail with
  | nil => exact walking
  | cons operation rest ih =>
    have step := step_cases formed operation
    exact ih (step_formed table operation formed)
      (step_walking formed walking (forward operation List.mem_cons_self) step)
      fun other member => forward other (List.mem_cons_of_mem operation member)

theorem after_ahead (operations : List TableOperation) (formed : table.Formed)
    (aligned : ∃ i ≤ table.capacity.toNat, table.ahead.toNat = i * table.slotStride.toNat) :
    ∃ i ≤ (table.after operations).capacity.toNat,
      (table.after operations).ahead.toNat = i * (table.after operations).slotStride.toNat := by
  induction operations generalizing table with
  | nil => exact aligned
  | cons operation rest ih =>
    have step := step_cases formed operation
    have framed := step_framed step
    refine ih (step_formed table operation formed) ?_
    rw [framed.capacity, framed.slotStride]
    exact step_ahead formed aligned step

end Run

-- A walk that has handed out its cursor as it was seen each time, on a table whose records were put
-- at these places, one after the other.
structure Walks (table : Table) (places : List Place) (seen : List Cursor) : Prop where
  count : places.length = table.contents.count.toNat
  slots : ∀ (i : Nat) (place : Place), places[i]? = some place → table.AtSlot i place
  occupied : ∀ offset : UInt64,
    offset ∈ table.contents.occupied ↔ (⟨table.buffer, offset⟩ : Place) ∈ places
  distinct : places.Nodup
  order : seen.map (·.place) = (places.take seen.length).map some
  locked : ∀ cursor ∈ seen, cursor.keyLocked = true
  more : table.answer .hasMore = .ok (.truth (decide (seen.length < places.length)))
  goes : ∀ place, places[seen.length]? = some place →
    table.answer .next = .ok .done ∧ table.step .next = { table with
      walker := table.walker.onto place.buffer place.offset
      ahead := place.offset + table.slotStride }
  stops : places.length ≤ seen.length → seen.map (·.place) = places.map some ∧
    (∃ fault : Fault, fault.kind = .outOfRange ∧ table.answer .next = .error fault) ∧
    table.step .next = table

section Walks

variable {table : Table} {trail : Trail}

theorem next_over (past : table.hasMore = false) :
    table.answer .next = .error .noMoreRecords ∧ table.step .next = table := by
  have ran : next table = .error .noMoreRecords table := by
    rw [next, get_bind, if_neg (by rw [past]; exact Bool.false_ne_true)]
    rfl
  exact answer_step (bind_error ran)

theorem more_at (formed : table.Formed) {i : Nat} (few : i ≤ table.contents.count.toNat)
    (position : table.ahead.toNat = i * table.slotStride.toNat)
    (spare : table.buffer.size.toNat + table.slotStride.toNat < UInt64.size) :
    table.hasMore = decide (i < table.contents.count.toNat) := by
  have below : i * table.slotStride.toNat ≤ table.buffer.size.toNat := by
    rw [formed.size]
    exact Nat.mul_le_mul_right _ (Nat.le_trans few formed.counted.count)
  have next : (table.ahead + table.slotStride).toNat = (i + 1) * table.slotStride.toNat := by
    rw [UInt64.toNat_add, position, Nat.succ_mul]
    exact Nat.mod_eq_of_lt (Nat.lt_of_le_of_lt (Nat.add_le_add_right below _) spare)
  rw [Bool.eq_iff_iff, hasMore, Bool.and_eq_true, bne_iff_ne, decide_eq_true_eq, decide_eq_true_eq,
    UInt64.le_iff_toNat_le, next, formed.counted.next]
  constructor
  · rintro ⟨-, past⟩
    exact Nat.le_of_mul_le_mul_right past (stride_positive formed)
  · intro fewer
    refine ⟨fun blank => ?_, Nat.mul_le_mul_right _ fewer⟩
    rw [blank] at fewer
    exact absurd fewer (Nat.not_lt_zero _)

theorem walking_more (formed : table.Formed) (walking : table.Walking trail.seen)
    (spare : table.buffer.size.toNat + table.slotStride.toNat < UInt64.size) :
    table.hasMore = decide (trail.seen.length < table.contents.count.toNat) :=
  more_at formed walking.few walking.ahead spare

theorem laid_occupied (formed : table.Formed) {laid : List Place}
    (held : table.Laid table.contents laid) (offset : UInt64) :
    offset ∈ table.contents.occupied ↔ (⟨table.buffer, offset⟩ : Place) ∈ laid := by
  rw [formed.counted.occupied, List.mem_iff_getElem?]
  constructor
  · rintro ⟨i, few, position⟩
    have listed := List.getElem?_eq_getElem (held.count ▸ few)
    refine ⟨i, listed.trans (congrArg some ?_)⟩
    exact at_slot_unique (held.place i _ listed) ⟨rfl, position⟩
  · rintro ⟨i, listed⟩
    refine ⟨i, ?_, (held.place i _ listed).2⟩
    rw [← held.count]
    exact (List.getElem?_eq_some_iff.mp listed).1

theorem laid_distinct (formed : table.Formed) {laid : List Place}
    (held : table.Laid table.contents laid) : laid.Nodup := by
  rw [List.Nodup, List.pairwise_iff_getElem]
  intro i j inside few before same
  have here := held.place i _ (List.getElem?_eq_getElem inside)
  have there := held.place j _ (List.getElem?_eq_getElem few)
  rw [same] at here
  have position := Nat.eq_of_mul_eq_mul_right (stride_positive formed) (here.2.symm.trans there.2)
  exact absurd position (Nat.ne_of_lt before)

theorem walking_order {laid : List Place} (held : table.Laid table.contents laid)
    {seen : List Cursor} (walking : table.Walking seen) :
    seen.map (·.place) = (laid.take seen.length).map some := by
  have few := walking.few
  rw [← held.count] at few
  apply List.ext_getElem
  · rw [List.length_map, List.length_map, List.length_take, Nat.min_eq_left few]
  · intro i inside _
    rw [List.length_map] at inside
    obtain ⟨-, place, placed, here⟩ := walking.visit i _ (List.getElem?_eq_getElem inside)
    have there := held.place i _ (List.getElem?_eq_getElem (Nat.lt_of_lt_of_le inside few))
    rw [List.getElem_map, List.getElem_map, List.getElem_take, placed, at_slot_unique here there]

theorem walking_goes (formed : table.Formed) (held : table.Laid table.contents trail.laid)
    (walking : table.Walking trail.seen) (more : table.hasMore = true)
    (resident : table.walker.Resident table.layout table.buffer) {place : Place}
    (listed : trail.laid[trail.seen.length]? = some place) :
    table.answer .next = .ok .done ∧ table.step .next = { table with
      walker := table.walker.onto place.buffer place.offset
      ahead := place.offset + table.slotStride } := by
  have here : (⟨table.buffer, table.ahead⟩ : Place) = place :=
    at_slot_unique ⟨rfl, walking.ahead⟩ (held.place _ _ listed)
  cases here
  have few := (List.getElem?_eq_some_iff.mp listed).1
  rw [held.count] at few
  have room := slot_room formed (Nat.lt_of_lt_of_le few formed.counted.count)
  rw [← walking.ahead] at room
  obtain ⟨moved, bound⟩ := Cursor.resident_moves resident room
  exact answer_step (next_run more bound)

theorem walking_walks (formed : table.Formed) (recorded : table.Recorded trail)
    (walking : table.Walking trail.seen)
    (spare : table.buffer.size.toNat + table.slotStride.toNat < UInt64.size)
    (resident : table.walker.Resident table.layout table.buffer) :
    table.Walks trail.laid trail.seen := by
  have held := recorded.now
  have more := walking_more formed walking spare
  rw [← held.count] at more
  refine {
    count := held.count
    slots := held.place
    occupied := laid_occupied formed held
    distinct := laid_distinct formed held
    order := walking_order held walking
    locked := ?_
    more := ?_
    goes := ?_
    stops := ?_ }
  · intro cursor member
    obtain ⟨i, listed⟩ := List.mem_iff_getElem?.mp member
    exact (walking.visit i cursor listed).1
  · rw [← more]
    rfl
  · intro place listed
    have few := (List.getElem?_eq_some_iff.mp listed).1
    rw [decide_eq_true few] at more
    exact walking_goes formed held walking more resident listed
  · intro past
    rw [decide_eq_false (Nat.not_lt.mpr past)] at more
    obtain ⟨answered, stepped⟩ := next_over more
    refine ⟨?_, ⟨_, rfl, answered⟩, stepped⟩
    rw [walking_order held walking, List.take_of_length_le past]

end Walks

section Created

variable {memory : Memory} {layout : Layout} {capacity : UInt64} {options : TableOptions}
  {start : Table}

theorem create_recorded (created : create memory (some layout) capacity options = .ok start) :
    start.Recorded {} := by
  obtain ⟨_, -, made⟩ := create_ok created
  refine ⟨⟨?_, nofun⟩, ?_⟩
  · rw [made.contents]
    rfl
  · intro bytes contents saved
    rw [made.snapshot] at saved
    cases saved

theorem rewound_walking (table : Table) : (table.step .rewind).Walking [] :=
  ⟨(Nat.zero_mul _).symm, Nat.zero_le _, nofun⟩

end Created

theorem walk_visits_every_record {schema : Schema} {layout : Layout} {memory : Memory}
    {capacity : UInt64} {options : TableOptions} {start : Table}
    (built : Layout.build schema = .ok layout)
    (created : create memory (some layout) capacity options = .ok start)
    (wide : layout.extent + options.slotPadding.toNat < UInt64.size)
    (spare : start.buffer.size.toNat + start.slotStride.toNat < UInt64.size) :
    (∀ earlier later : List TableOperation,
      start.Handed Hands.fresh (earlier ++ .rewind :: later) →
      (∀ operation ∈ later, operation ≠ .rollback) →
        let now := start.after (earlier ++ .rewind :: later)
        let trail := start.trail {} (earlier ++ .rewind :: later)
        now.Walks trail.laid trail.seen) ∧
    ∀ operations : List TableOperation,
      let now := start.after operations
      now.answer .next = .ok .done → (now.step .next).OnRecord (now.step .next).walker := by
  obtain ⟨packed, room⟩ := Layout.build_wide built wide
  have fresh := create_formed created packed room
  refine ⟨fun earlier later handed forward => ?_, fun operations => ?_⟩
  · have formed := after_formed start (earlier ++ .rewind :: later) fresh
    have framed := after_framed fresh (earlier ++ .rewind :: later)
    obtain ⟨twin, -⟩ := after_own created _ handed
    have walking : (start.after (earlier ++ .rewind :: later)).Walking
        (start.trail {} (earlier ++ .rewind :: later)).seen := by
      rw [after_append, trail_append]
      have middle := after_formed start earlier fresh
      exact after_walking later (step_formed _ .rewind middle) (rewound_walking _) forward
    refine walking_walks formed (after_recorded _ fresh (create_recorded created)) walking ?_
      twin.walker.here
    rw [framed.buffer, framed.slotStride]
    exact spare
  · intro now went
    have formed := after_formed start operations fresh
    have aligned := after_ahead operations fresh (create_homed created).ahead
    have step := step_cases formed .next
    rw [Steps, went] at step
    generalize now.step .next = after at step ⊢
    cases step with
    | asked asks => cases asks
    | walked more room =>
      exact ⟨now.ahead, ahead_occupied formed aligned more room, rfl, rfl⟩

-- One record is appended while the walk goes on; in the second run, one takes the place of another
-- that was rolled back.
theorem pair_walks :
    ∃ start, create Memory.empty (some pairLayout) 3 {} = .ok start ∧
      let walk : List TableOperation := [.append 1, .rewind, .next, .append 2, .next]
      let back : List TableOperation := [.begin, .append 1, .rewind, .rollback, .append 2]
      (start.trail {} walk).laid = [⟨start.buffer, 0⟩, ⟨start.buffer, 17⟩] ∧
      (start.trail {} walk).seen.length = 2 ∧
      (start.after walk).Walks (start.trail {} walk).laid (start.trail {} walk).seen ∧
      ((start.after back).step .next).OnRecord ((start.after back).step .next).walker := by
  let walk : List TableOperation := [.append 1, .rewind, .next, .append 2, .next]
  let back : List TableOperation := [.begin, .append 1, .rewind, .rollback, .append 2]
  obtain ⟨start, created, spare, handed, laid, seen, went⟩ : ∃ start,
      create Memory.empty (some pairLayout) 3 {} = .ok start ∧
        start.buffer.size.toNat + start.slotStride.toNat < UInt64.size ∧
        start.Handed Hands.fresh walk ∧
        (start.trail {} walk).laid = [⟨start.buffer, 0⟩, ⟨start.buffer, 17⟩] ∧
        (start.trail {} walk).seen.length = 2 ∧ (start.after back).answer .next = .ok .done :=
    ⟨_, rfl, by decide +kernel, by decide +kernel, by decide +kernel, by decide +kernel,
      by decide +kernel⟩
  obtain ⟨walks, stays⟩ := walk_visits_every_record pair_built created (by decide) spare
  exact ⟨start, created, laid, seen,
    walks [.append 1] [.next, .append 2, .next] handed (by decide), stays back went⟩

end Table

end RecordStore
