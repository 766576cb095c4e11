import Hydra.Spsc.Invariant

/-!
# The queue under every interleaving

What has been popped is a prefix of what has been pushed, the two threads never
meet in a slot, and a call that fails changes nothing.  Without interleaving
the queue answers like the list behind a mutex.
-/

namespace Hydra

variable {width : Nat} {Word : Type} {capacity : Capacity}
variable {state : SharedQueue width Word capacity}
variable {history : QueueHistory width Word}

namespace QueueHistory

variable {next : SharedQueue width Word capacity}
variable {event : QueueEvent width Word} {thread : QueueThread}

theorem record_other (other : event.thread ≠ thread) :
    (record state event next history).Changed thread ↔
      history.Changed thread := by
  constructor
  · intro changed
    rcases changed with ⟨same, _⟩ | ⟨_, before⟩
    · exact absurd same other
    · exact before
  · intro before
    exact .inr ⟨fun starts => other starts.1, before⟩

theorem record_start (kept : next.queue = state.queue)
    (starts : event.Starts) :
    ¬ (record state event next history).Changed event.thread := by
  intro changed
  rcases changed with ⟨_, differs⟩ | ⟨later, _⟩
  · exact differs kept
  · exact later ⟨rfl, starts⟩

theorem record_kept (kept : next.queue = state.queue)
    (unchanged : ¬ history.Changed thread) :
    ¬ (record state event next history).Changed thread := by
  intro changed
  rcases changed with ⟨_, differs⟩ | ⟨_, before⟩
  · exact differs kept
  · exact unchanged before

end QueueHistory

/-- A thread that has not yet loaded the other counter has not changed the
queue. -/
structure SharedQueue.Unchanged (state : SharedQueue width Word capacity)
    (history : QueueHistory width Word) : Prop where
  producer : ∀ item tail, state.producer = .loaded item tail →
    ¬ history.Changed .producer
  consumer : ∀ out head, state.consumer = .loaded out head →
    ¬ history.Changed .consumer

namespace SharedQueue

variable {next : SharedQueue width Word capacity}
variable {event : QueueEvent width Word}

theorem Step.producer_loaded {item : Words width Word} {tail : UInt64}
    (taken : Step state event next)
    (loaded : next.producer = .loaded item tail) :
    (event = .pushStart ∧ next.queue = state.queue) ∨
    (event.thread = .consumer ∧ state.producer = .loaded item tail) := by
  cases taken with
  | pushStart => exact .inl ⟨rfl, rfl⟩
  | pushRefuse | pushAdmit | pushWrite | pushDone => cases loaded
  | popStart | popRefuse | popAdmit | popRead | popDone =>
      exact .inr ⟨rfl, loaded⟩

theorem Step.consumer_loaded {out : Words width Word} {head : UInt64}
    (taken : Step state event next)
    (loaded : next.consumer = .loaded out head) :
    (event = .popStart ∧ next.queue = state.queue) ∨
    (event.thread = .producer ∧ state.consumer = .loaded out head) := by
  cases taken with
  | pushStart | pushRefuse | pushAdmit | pushWrite | pushDone =>
      exact .inr ⟨rfl, loaded⟩
  | popStart => exact .inl ⟨rfl, rfl⟩
  | popRefuse | popAdmit | popRead | popDone => cases loaded

theorem Unchanged.step (unchanged : state.Unchanged history)
    (taken : Step state event next) :
    next.Unchanged (.record state event next history) where
  producer item tail loaded := by
    rcases taken.producer_loaded loaded with ⟨rfl, kept⟩ | ⟨other, before⟩
    · exact QueueHistory.record_start kept trivial
    · intro changed
      apply unchanged.producer item tail before
      apply (QueueHistory.record_other _).mp changed
      rw [other]
      intro same
      cases same
  consumer out head loaded := by
    rcases taken.consumer_loaded loaded with ⟨rfl, kept⟩ | ⟨other, before⟩
    · exact QueueHistory.record_start kept trivial
    · intro changed
      apply unchanged.consumer out head before
      apply (QueueHistory.record_other _).mp changed
      rw [other]
      intro same
      cases same

theorem recorded_unchanged [Inhabited Word]
    (reachable : (recorded width Word capacity).Reachable (state, history)) :
    state.Unchanged history := by
  refine Machine.Reachable.invariant
    (fun recorded => recorded.1.Unchanged recorded.2) ?_ ?_ reachable
  · intro recorded start
    rw [start.2]
    exact ⟨fun _ _ _ changed => changed, fun _ _ _ changed => changed⟩
  · intro recorded event next held taken
    rw [taken.2]
    exact held.step taken.1

/-- The last step of a call that fails leaves the queue as it is, and so did
the steps before it. -/
theorem Unchanged.fails (unchanged : state.Unchanged history)
    (taken : Step state event next) (fails : event.Fails) :
    ¬ (QueueHistory.record state event next history).Changed event.thread := by
  cases taken with
  | pushRefuse loaded =>
      exact QueueHistory.record_kept rfl (unchanged.producer _ _ loaded)
  | popRefuse loaded =>
      exact QueueHistory.record_kept rfl (unchanged.consumer _ _ loaded)
  | pushStart | pushAdmit | pushWrite | pushDone => cases fails
  | popStart | popAdmit | popRead | popDone => cases fails

end SharedQueue

/-- The call that an event completes, with its answer. -/
def QueueEvent.completed : QueueEvent width Word →
    Option (QueueCall (Words width Word) × QueueReply (Words width Word))
  | pushRefuse item _ => some (.push item, .pushed false)
  | pushDone item => some (.push item, .pushed true)
  | popRefuse _ => some (.pop, .popped none)
  | popDone item => some (.pop, .popped (some item))
  | _ => none

/-- A call starts when the other thread is not in a call, and a load returns
the last value. -/
def SharedQueue.Serial (state : SharedQueue width Word capacity) :
    QueueEvent width Word → Prop
  | .pushStart => state.consumer = .idle
  | .popStart => state.producer = .idle
  | .pushRefuse _ head | .pushAdmit head => head = state.queue.head
  | .popRefuse tail | .popAdmit tail => tail = state.queue.tail
  | .pushWrite | .pushDone _ | .popRead | .popDone _ => True

/-- The threads without interleaving, together with the completed calls. -/
def SharedQueue.serial (width : Nat) (Word : Type) [Inhabited Word]
    (capacity : Capacity) :
    Machine
      (SharedQueue width Word capacity ×
        List (QueueCall (Words width Word) × QueueReply (Words width Word)))
      (QueueEvent width Word) :=
  Machine.withGhost
    { initial state := state = SharedQueue.initial
      step state event next := Step state event next ∧ state.Serial event }
    [] (fun _ event _ log => log ++ event.completed.toList)

/-- Where a push stands that has started from `queue`, when the consumer does
nothing. -/
def Producer.InCall (queue now : SpscQueue (Words width Word) capacity) :
    Producer width Word → Prop
  | idle => now = queue
  | loaded _ tail => now = queue ∧ tail = queue.tail
  | writing item tail pending =>
      tail = queue.tail ∧ queue.tail - queue.head < capacity.word ∧
        now.head = queue.head ∧
        (∀ slot, slot ≠ capacity.slotOf queue.tail →
          now.buffer slot = queue.buffer slot) ∧
        ∀ word, word ∉ pending →
          now.buffer (capacity.slotOf queue.tail) word = item word

/-- Where a pop stands that has started from `queue`, when the producer does
nothing. -/
def Consumer.InCall (queue now : SpscQueue (Words width Word) capacity) :
    Consumer width Word → Prop
  | idle => now = queue
  | loaded _ head => now = queue ∧ head = queue.head
  | copying out head pending =>
      now = queue ∧ head = queue.head ∧ queue.head < queue.tail ∧
        ∀ word, word ∉ pending →
          out word = queue.buffer (capacity.slotOf queue.head) word

/-- At most one thread is in a call, and this call has started from
`queue`. -/
def SharedQueue.InCall (state : SharedQueue width Word capacity)
    (queue : SpscQueue (Words width Word) capacity) : Prop :=
  (state.consumer = .idle ∧ state.producer.InCall queue state.queue) ∨
    (state.producer = .idle ∧ state.consumer.InCall queue state.queue)

namespace SharedQueue

variable {queue : SpscQueue (Words width Word) capacity}
variable {next : SharedQueue width Word capacity}
variable {event : QueueEvent width Word}

theorem InCall.quiet (inCall : state.InCall queue)
    (producer : state.producer = .idle) (consumer : state.consumer = .idle) :
    state.queue = queue := by
  rcases inCall with ⟨_, pushing⟩ | ⟨_, popping⟩
  · rw [producer] at pushing
    exact pushing
  · rw [consumer] at popping
    exact popping

theorem InCall.pushing {point : Producer width Word}
    (inCall : state.InCall queue) (at_point : state.producer = point)
    (busy : point ≠ .idle) :
    state.consumer = .idle ∧ point.InCall queue state.queue := by
  rw [← at_point] at busy ⊢
  rcases inCall with pushing | popping
  · exact pushing
  · exact absurd popping.1 busy

theorem InCall.popping {point : Consumer width Word}
    (inCall : state.InCall queue) (at_point : state.consumer = point)
    (busy : point ≠ .idle) :
    state.producer = .idle ∧ point.InCall queue state.queue := by
  rw [← at_point] at busy ⊢
  rcases inCall with pushing | popping
  · exact absurd pushing.1 busy
  · exact popping

/-- A whole push at its last step. -/
theorem push_of_written {now : SpscQueue (Words width Word) capacity}
    {item : Words width Word} {tail : UInt64}
    (written : (Producer.writing item tail ∅).InCall queue now) :
    queue.push item = (true, { now with tail := tail + 1 }) := by
  obtain ⟨current, room, head, others, words⟩ := written
  have stored : now.buffer (capacity.slotOf queue.tail) = item :=
    funext (fun word => words word (Finset.notMem_empty word))
  have buffer : Function.update queue.buffer (capacity.slotOf queue.tail)
      item = now.buffer := by
    funext slot
    by_cases same : slot = capacity.slotOf queue.tail
    · rw [same, Function.update_self, stored]
    · rw [Function.update_of_ne same, others slot same]
  rw [SpscQueue.push, if_pos room, buffer, ← head, current]

/-- A whole pop at its last step. -/
theorem pop_of_copied {now : SpscQueue (Words width Word) capacity}
    {out : Words width Word} {head : UInt64}
    (copied : (Consumer.copying out head ∅).InCall queue now) :
    queue.pop = (some out, { now with head := head + 1 }) := by
  obtain ⟨rfl, current, ready, words⟩ := copied
  have whole : out = now.buffer (capacity.slotOf now.head) :=
    funext (fun word => words word (Finset.notMem_empty word))
  rw [SpscQueue.pop, if_pos ready, current, whole]

theorem InCall.pushWrite {item : Words width Word} {tail : UInt64}
    {pending : Finset (Fin width)} {word : Fin width}
    {now : SpscQueue (Words width Word) capacity}
    (writing : (Producer.writing item tail pending).InCall queue now) :
    (Producer.writing item tail (pending.erase word)).InCall queue
      (now.writeWord (capacity.slotOf tail) word (item word)) := by
  obtain ⟨rfl, room, head, others, words⟩ := writing
  refine ⟨rfl, room, head, ?_, ?_⟩
  · intro slot differs
    rw [← others slot differs]
    exact Function.update_of_ne differs ..
  · intro other absent
    by_cases same : other = word
    · rw [same, SpscQueue.writeWord_self]
    · rw [SpscQueue.writeWord_of_ne _ _ _ same]
      apply words
      intro member
      exact absent (Finset.mem_erase.mpr ⟨same, member⟩)

theorem InCall.popRead {out : Words width Word} {head : UInt64}
    {pending : Finset (Fin width)} {word : Fin width}
    {now : SpscQueue (Words width Word) capacity}
    (copying : (Consumer.copying out head pending).InCall queue now) :
    (Consumer.copying
      (Function.update out word (now.buffer (capacity.slotOf head) word)) head
      (pending.erase word)).InCall queue now := by
  obtain ⟨rfl, rfl, ready, words⟩ := copying
  refine ⟨rfl, rfl, ready, ?_⟩
  intro other absent
  by_cases same : other = word
  · rw [same, Function.update_self]
  · rw [Function.update_of_ne same]
    apply words
    intro member
    exact absent (Finset.mem_erase.mpr ⟨same, member⟩)

/-- A step without interleaving either continues the call or completes it, with
the answer and the queue of the whole call. -/
theorem InCall.step (inCall : state.InCall queue)
    (taken : Step state event next) (serial : state.Serial event) :
    (event.completed = none ∧ next.InCall queue) ∨
    ∃ call, event.completed = some (call, (queue.answer call).1) ∧
      next.InCall (queue.answer call).2 := by
  cases taken with
  | pushStart item idle =>
      have current := inCall.quiet idle serial
      refine .inl ⟨rfl, .inl ⟨serial, current, ?_⟩⟩
      rw [current]
  | @pushRefuse item tail place head loaded published fresh full =>
      obtain ⟨consumer, current, rfl⟩ :=
        inCall.pushing loaded (by simp)
      have latest : head = state.queue.head := serial
      rw [latest, current] at full
      have refused : queue.push item = (false, queue) := by
        rw [SpscQueue.push, if_neg full]
      refine .inr ⟨.push item, ?_, .inl ⟨consumer, ?_⟩⟩
      · rw [SpscQueue.answer, refused]
        rfl
      · rw [SpscQueue.answer, refused]
        exact current
  | pushAdmit loaded published fresh room =>
      obtain ⟨consumer, current, rfl⟩ :=
        inCall.pushing loaded (by simp)
      rw [show _ = state.queue.head from serial, current] at room
      refine .inl ⟨rfl, .inl ⟨consumer, rfl, room, ?_, ?_, ?_⟩⟩
      · exact congrArg SpscQueue.head current
      · intro slot _
        exact congrArg (fun queue => queue.buffer slot) current
      · intro word written
        exact absurd (Finset.mem_univ word) written
  | pushWrite writing left =>
      have pushing := inCall.pushing writing (by simp)
      exact .inl ⟨rfl, .inl ⟨pushing.1, InCall.pushWrite pushing.2⟩⟩
  | @pushDone item tail writing =>
      have pushing := inCall.pushing writing (by simp)
      have pushed := push_of_written pushing.2
      refine .inr ⟨.push item, ?_, .inl ⟨pushing.1, ?_⟩⟩
      · rw [SpscQueue.answer, pushed]
        rfl
      · rw [SpscQueue.answer, pushed]
        rfl
  | popStart out idle =>
      have current := inCall.quiet serial idle
      refine .inl ⟨rfl, .inr ⟨serial, current, ?_⟩⟩
      rw [current]
  | popRefuse loaded published fresh empty =>
      obtain ⟨producer, current, rfl⟩ :=
        inCall.popping loaded (by simp)
      rw [show _ = state.queue.tail from serial, current] at empty
      have refused : queue.pop = (none, queue) := by
        rw [SpscQueue.pop, if_neg empty]
      refine .inr ⟨.pop, ?_, .inr ⟨producer, ?_⟩⟩
      · rw [SpscQueue.answer, refused]
        rfl
      · rw [SpscQueue.answer, refused]
        exact current
  | popAdmit loaded published fresh ready =>
      obtain ⟨producer, current, rfl⟩ :=
        inCall.popping loaded (by simp)
      rw [show _ = state.queue.tail from serial, current] at ready
      refine .inl ⟨rfl, .inr ⟨producer, current, rfl, ready, ?_⟩⟩
      intro word copied
      exact absurd (Finset.mem_univ word) copied
  | popRead copying left =>
      have popping := inCall.popping copying (by simp)
      exact .inl ⟨rfl, .inr ⟨popping.1, InCall.popRead popping.2⟩⟩
  | popDone copying =>
      have popping := inCall.popping copying (by simp)
      have popped := pop_of_copied popping.2
      refine .inr ⟨.pop, ?_, .inr ⟨popping.1, ?_⟩⟩
      · rw [SpscQueue.answer, popped]
        rfl
      · rw [SpscQueue.answer, popped]
        rfl

theorem serial_inCall [Inhabited Word]
    {log : List (QueueCall (Words width Word) × QueueReply (Words width Word))}
    (reachable : (serial width Word capacity).Reachable (state, log)) :
    state.InCall
        (queueAfter SpscQueue.answer .empty (log.map Prod.fst)) ∧
      log.map Prod.snd =
        replies SpscQueue.answer
          (.empty : SpscQueue (Words width Word) capacity)
          (log.map Prod.fst) := by
  refine Machine.Reachable.invariant
    (fun logged =>
      logged.1.InCall
        (queueAfter SpscQueue.answer .empty (logged.2.map Prod.fst)) ∧
      logged.2.map Prod.snd =
        replies SpscQueue.answer
          (.empty : SpscQueue (Words width Word) capacity)
          (logged.2.map Prod.fst)) ?_ ?_ reachable
  · intro logged start
    obtain ⟨fresh, empty⟩ := start
    rw [empty, show logged.1 = initial from fresh]
    exact ⟨.inl ⟨rfl, rfl⟩, rfl⟩
  · intro logged event next held taken
    obtain ⟨inCall, answered⟩ := held
    have record : next.2 = logged.2 ++ event.completed.toList := taken.2
    rw [record]
    rcases inCall.step taken.1.1 taken.1.2 with ⟨continues, later⟩ |
      ⟨call, completes, later⟩
    · rw [continues, Option.toList_none, List.append_nil]
      exact ⟨later, answered⟩
    · rw [completes, Option.toList_some, List.map_append, List.map_append,
        answered]
      constructor
      · rw [← queueAfter_concat] at later
        exact later
      · exact (replies_concat SpscQueue.answer _ _ call).symm

/-- While it writes, the producer is alone in its slot. -/
theorem Sound.slot_ne {first : Nat} {waiting : List (Words width Word)}
    {item : Words width Word} {tail : UInt64} {pending : Finset (Fin width)}
    (sound : state.Sound first waiting)
    (small : first + waiting.length < 2 ^ 64)
    (writing : state.producer = .writing item tail pending) {position : Nat}
    (unread : first ≤ position) (written : position < first + waiting.length) :
    capacity.slotOf tail ≠ capacity.slotOf (.ofNat position) := by
  have producer := sound.producer
  rw [writing] at producer
  obtain ⟨rfl, free, _⟩ := producer
  rw [sound.holds.tail, capacity.slotOf_ofNat small,
    capacity.slotOf_ofNat (by omega)]
  apply Ne.symm
  apply Ring.ofNat_ne written
  omega

/-- The consumer copies the first item. -/
theorem Sound.copying_first {first : Nat} {waiting : List (Words width Word)}
    {out : Words width Word} {head : UInt64} {pending : Finset (Fin width)}
    (sound : state.Sound first waiting)
    (copying : state.consumer = .copying out head pending) :
    head = .ofNat first ∧ 0 < waiting.length := by
  have consumer := sound.consumer
  rw [copying] at consumer
  obtain ⟨rfl, item, rest, rfl, _⟩ := consumer
  exact ⟨sound.holds.head, Nat.succ_pos _⟩

/-- The queue is a bounded first-in first-out queue under every interleaving of
one producer and one consumer, and without interleaving it answers like the
queue of the ablation. -/
theorem interleaved_fifo [Inhabited Word]
    (reachable : (recorded width Word capacity).Reachable (state, history))
    (few : history.pushed.length < 2 ^ 64) :
    history.popped <+: history.pushed ∧
    state.queue.head.toNat ≤ state.queue.tail.toNat ∧
    state.queue.tail.toNat ≤ state.queue.head.toNat + capacity.size ∧
    (∀ item tail pending, state.producer = .writing item tail pending →
      (∀ position, history.popped.length ≤ position →
        position < history.pushed.length →
        capacity.slotOf tail ≠ capacity.slotOf (.ofNat position)) ∧
      ∀ out head left, state.consumer = .copying out head left →
        capacity.slotOf tail ≠ capacity.slotOf head) ∧
    (∀ event next,
      (recorded width Word capacity).step (state, history) event next →
      event.Fails → ¬ next.2.Changed event.thread) ∧
    ∀ alone log, (serial width Word capacity).Reachable (alone, log) →
      ((log.map Prod.fst).map QueueCall.pushes).sum < 2 ^ 64 →
      log.map Prod.snd =
        replies MutexQueue.answer
          (.empty : MutexQueue (Words width Word) capacity.size)
          (log.map Prod.fst) := by
  obtain ⟨waiting, accounted, sound⟩ := recorded_sound reachable few
  have total : history.pushed.length =
      history.popped.length + waiting.length := by
    rw [accounted, List.length_append]
  rw [total] at few
  have head : state.queue.head.toNat = history.popped.length := by
    rw [sound.holds.head]
    apply UInt64.toNat_ofNat_of_lt'
    exact Nat.lt_of_le_of_lt (Nat.le_add_right _ _) few
  have tail : state.queue.tail.toNat =
      history.popped.length + waiting.length := by
    rw [sound.holds.tail]
    exact UInt64.toNat_ofNat_of_lt' few
  refine ⟨?_, ?_, ?_, ?_, ?_, ?_⟩
  · rw [accounted]
    exact List.prefix_append _ _
  · rw [head, tail]
    exact Nat.le_add_right _ _
  · rw [head, tail]
    exact Nat.add_le_add_left sound.holds.window.fits _
  · intro item tail pending writing
    constructor
    · intro position unread written
      rw [total] at written
      exact sound.slot_ne few writing unread written
    · intro out head left copying
      obtain ⟨rfl, nonempty⟩ := sound.copying_first copying
      apply sound.slot_ne few writing (Nat.le_refl _)
      omega
  · intro event next taken fails
    rw [taken.2]
    exact (recorded_unchanged reachable).fails taken.1 fails
  · intro alone log reachable few
    rw [(serial_inCall reachable).2]
    apply SpscQueue.empty_holds.replies_eq
    rw [List.length_nil, Nat.zero_add]
    exact few

/-- In a queue with two slots, the producer writes the second item while the
consumer copies the first one. -/
theorem interleaved_fifo_meeting :
    ∃ (state : SharedQueue 1 Nat ⟨1, by decide⟩) (history : QueueHistory 1 Nat),
      (recorded 1 Nat ⟨1, by decide⟩).Reachable (state, history) ∧
      state.producer = .writing (fun _ => 8) 1 Finset.univ ∧
      state.consumer = .copying (fun _ => 0) 0 Finset.univ ∧
      history.pushed = [fun _ => 7] ∧
      history.popped <+: history.pushed ∧
      state.queue.head.toNat ≤ state.queue.tail.toNat ∧
      state.queue.tail.toNat ≤ state.queue.head.toNat + 2 ∧
      Capacity.slotOf ⟨1, by decide⟩ 1 ≠ Capacity.slotOf ⟨1, by decide⟩ 0 := by
  have start : (recorded 1 Nat ⟨1, by decide⟩).Reachable
      (initial, .start) := .initial ⟨rfl, rfl⟩
  have loaded := recorded_step start (.pushStart (fun _ => 7) rfl)
  have admitted := recorded_step loaded
    (@Step.pushAdmit _ _ _ _ _ _ 0 _ rfl rfl (Nat.le_refl 0) (by decide))
  have written := recorded_step admitted
    (.pushWrite rfl (Finset.mem_univ 0))
  have done := recorded_step written (@Step.pushDone _ _ _ _ (fun _ => 7) 0 rfl)
  have second := recorded_step done (.pushStart (fun _ => 8) rfl)
  have writing := recorded_step second
    (@Step.pushAdmit _ _ _ _ _ _ 0 _ rfl rfl (Nat.le_refl 0) (by decide))
  have popping := recorded_step writing (.popStart (fun _ => 0) rfl)
  have copying := recorded_step popping
    (@Step.popAdmit _ _ _ _ _ _ 1 _ rfl rfl (Nat.zero_le 1) (by decide))
  obtain ⟨order, ahead, near, slots, _⟩ :=
    interleaved_fifo copying (by decide)
  exact ⟨_, _, copying, rfl, rfl, rfl, order, ahead, near,
    (slots _ _ _ rfl).2 _ _ _ rfl⟩

end SharedQueue

end Hydra
