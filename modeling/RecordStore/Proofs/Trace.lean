import RecordStore.Proofs.Lockstep
import RecordStore.Proofs.Rollback

namespace RecordStore.Table

theorem after_alike (table : Table) (operations : List TableOperation)
    (plain : ∀ operation ∈ operations, operation.transacts = false) :
    table.Alike (table.after operations) := by
  induction operations generalizing table with
  | nil => exact alike_refl table
  | cons operation rest ih =>
    exact alike_trans (step_alike table operation (plain operation List.mem_cons_self))
      (ih _ fun other member => plain other (List.mem_cons_of_mem _ member))

-- The table that a rollback leaves differs from the one before in its cursors at most.
theorem restored_twin {idle full : Table} {hands held : Hands}
    (before : Twin idle.memory hands idle idle) (after : Twin idle.memory held full full)
    (framed : idle.Framed full) (whole : idle.Whole) (closed : idle.snapshot = none) :
    Twin idle.memory {} idle (full.restored idle.bytes idle.contents) := by
  have memory : full.buffer.poke full.memory 0 idle.bytes = idle.memory := by
    rw [framed.buffer]
    refine Memory.poke_whole whole.start whole.size ?_
    rw [← framed.buffer]
    exact after.memory
  refine ⟨⟨framed.layout, framed.keyPosition, framed.capacity, framed.slotStride, memory,
    framed.buffer, rfl, closed.symm⟩, Memory.within_refl _, ⟨before.finder.here, ?_, nofun⟩,
    ⟨before.walker.here, ?_, nofun⟩, nofun⟩
  · have resident := after.finder.here
    rwa [framed.layout, framed.buffer] at resident
  · have resident := after.walker.here
    rwa [framed.layout, framed.buffer] at resident

theorem rollback_leaves_no_trace {memory : Memory} {layout : Option Layout} {capacity : UInt64}
    {options : TableOptions} {start : Table}
    (created : create memory layout capacity options = .ok start)
    (transactional : start.layout.transactional = true) (earlier body later : List TableOperation)
    (handed : start.Handed Hands.fresh (earlier ++ .begin :: body))
    (closed : (start.after earlier).pending = false)
    (plain : ∀ operation ∈ body, operation.transacts = false)
    (renewed : (start.after earlier).Handed {} later) :
    let idle := start.after earlier
    let full := start.after (earlier ++ .begin :: body)
    full.answer .rollback = .ok (.truth true) ∧
      (full.step .rollback).sight {} = idle.sight {} ∧
      (full.step .rollback).watch {} later = idle.watch {} later := by
  intro idle full
  have sound : idle.Sound := after_sound start earlier (create_sound created)
  have framed : start.Framed idle := after_fixed start earlier (create_sound created)
  have reached : full = idle.after (.begin :: body) := after_append start earlier (.begin :: body)
  have begun : (idle.step .begin).snapshot = some (idle.bytes, idle.contents) := by
    apply snapshot_begun
    rw [begins_iff, framed.layout]
    exact transactional
  have saved : full.snapshot = some (idle.bytes, idle.contents) := by
    rw [reached]
    exact (after_alike (idle.step .begin) body plain).snapshot.trans begun
  obtain ⟨answered, undone⟩ := rollback_step_some
    (after_sound start (earlier ++ .begin :: body) (create_sound created)) saved
  obtain ⟨first, second⟩ := handed_append.mp handed
  obtain ⟨before, whole⟩ := after_own created earlier first
  have after := after_twin before (.begin :: body) second
  rw [← reached] at after
  have same : idle.Framed full := reached ▸ after_fixed idle (.begin :: body) sound
  have twin : Twin idle.memory {} idle (full.step .rollback) := by
    rw [undone]
    exact restored_twin before after same whole (Option.not_isSome_iff_eq_none.mp (by
      rw [Bool.not_eq_true]
      exact closed))
  exact ⟨answered, sight_twin twin, watch_twin twin later renewed⟩

-- The transaction leaves the cursor on a record that is gone, and the walk behind it.
theorem pair_run_untraced :
    ∃ start, create Memory.empty (some pairLayout) 2 {} = .ok start ∧
      let earlier : List TableOperation := [.append 1, .onFinder (.write 1 (.int32 5))]
      let body : List TableOperation := [.append 2, .onFinder (.write 1 (.int32 7)), .next, .next]
      let later : List TableOperation :=
        [.append 3, .onFinder (.read 1), .rewind, .next, .onWalker .readAll]
      ((start.after (earlier ++ .begin :: body)).step .rollback).watch {} later =
        (start.after earlier).watch {} later := by
  let earlier : List TableOperation := [.append 1, .onFinder (.write 1 (.int32 5))]
  let body : List TableOperation := [.append 2, .onFinder (.write 1 (.int32 7)), .next, .next]
  let later : List TableOperation :=
    [.append 3, .onFinder (.read 1), .rewind, .next, .onWalker .readAll]
  obtain ⟨start, created, transactional, handed, closed, renewed⟩ : ∃ start,
      create Memory.empty (some pairLayout) 2 {} = .ok start ∧
        start.layout.transactional = true ∧
        start.Handed Hands.fresh (earlier ++ .begin :: body) ∧
        (start.after earlier).pending = false ∧ (start.after earlier).Handed {} later :=
    ⟨_, rfl, by decide +kernel, by decide +kernel, by decide +kernel, by decide +kernel⟩
  exact ⟨start, created, (rollback_leaves_no_trace created transactional earlier body later handed
    closed (by decide) renewed).2.2⟩

end RecordStore.Table
