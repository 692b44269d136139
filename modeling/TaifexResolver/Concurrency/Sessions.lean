import TaifexResolver.Concurrency.Visibility

/-!
# What threads see never goes back

The accesses that have ended come before all that end later, whichever threads make
them.  A book that is handed out later, by `get_book` or as a copy for the callbacks,
is therefore at least as recent as every book handed out and every message fed so far.
-/

namespace TaifexResolver

open Monitor

/-- The books that an access hands out: the copies for the callbacks, and the answer
of `get_book`. -/
def handedOut {θ : Type} (commit : Commit Access Aftermath Answer θ) : List OrderBook :=
  (commit.collected.filterMap Aftermath.delivery).map Delivery.book ++
    match commit.value with
    | .book found => found.toList
    | .nothing | .ids _ => []

/-- A book that an access hands out carries the last serial that its product has right
after the access. -/
theorem OrderBookManager.lastSerial_of_handedOut
    {θ : Type}
    {manager : OrderBookManager}
    (keyed : manager.Keyed)
    {commit : Commit Access Aftermath Answer θ}
    (noReset : ∀ fed ∈ commit.label.steps, fed.isReset = false)
    (performs : (manager.perform commit.label).2 = (commit.collected, commit.value))
    {book : OrderBook}
    (handed : book ∈ handedOut commit) :
    ∃ st, (manager.perform commit.label).1.productAt book.prodId.key = some st ∧
      book.lastProdMsgSeq.toNat = st.lastSerial := by
  rcases List.mem_append.mp handed with copied | answered
  · obtain ⟨delivery, collected, rfl⟩ := List.mem_map.mp copied
    rw [← show (manager.perform commit.label).2.1 = commit.collected from
      congrArg Prod.fst performs] at collected
    exact lastSerial_of_delivered keyed noReset collected
  · have value : (manager.perform commit.label).2.2 = commit.value :=
      congrArg Prod.snd performs
    rw [← value] at answered
    cases asked : commit.label with
    | operate operation =>
        rw [asked] at answered
        cases answered
    | productIds =>
        rw [asked] at answered
        cases answered
    | getBook prodId =>
        rw [asked] at answered
        obtain ⟨st, found, rfl⟩ := Option.map_eq_some_iff.mp (Option.mem_toList.mp answered)
        refine ⟨st, ?_, rfl⟩
        rw [OrderBook.prodId_stamp, keyed _ st found]
        exact found

/-- A serial that is covered stays covered through accesses that do not reset. -/
theorem Covers.accessing_final
    {manager : OrderBookManager}
    {accesses : List Access}
    (noReset : ∀ accessed ∈ accesses, ∀ fed ∈ accessed.steps, fed.isReset = false)
    {key : ProdKey}
    {serial : Nat}
    (covers : Covers (manager.productAt key) serial) :
    Covers ((OrderBookManager.accessing.final manager accesses).productAt key) serial :=
  Machine.invariant_run
    (fun state : OrderBookManager => Covers (state.productAt key) serial)
    (fun _ _ kept covered => covered.perform kept) covers noReset

/-- A message that is fed covers its serial. -/
theorem covers_of_fed
    (manager : OrderBookManager)
    {fed : Step}
    {prodId : ProdIdText}
    {message : ProductMessage}
    (carries : fed.message = some (prodId, message)) :
    Covers ((manager.perform (.operate (.feed fed))).1.productAt prodId.key)
      message.serial.toNat := by
  change Covers ((manager.step fed).1.productAt prodId.key) message.serial.toNat
  rw [manager.productAt_step_own carries]
  exact ⟨_, rfl, (message.lastSerial_body prodId _).1⟩

section Commits

variable
  {θ : Type}
  {manager : OrderBookManager}
  {commit : Commit Access Aftermath Answer θ}

/-- A book that is handed out has reached what its product has covered. -/
theorem Covers.le_handedOut
    {serial : Nat}
    {book : OrderBook}
    (covers : Covers (manager.productAt book.prodId.key) serial)
    (keyed : manager.Keyed)
    (noReset : ∀ fed ∈ commit.label.steps, fed.isReset = false)
    (performs : (manager.perform commit.label).2 = (commit.collected, commit.value))
    (handed : book ∈ handedOut commit) :
    serial ≤ book.lastProdMsgSeq.toNat := by
  obtain ⟨st, found, carries⟩ :=
    OrderBookManager.lastSerial_of_handedOut keyed noReset performs handed
  obtain ⟨live, present, covered⟩ := covers.perform noReset
  rw [found] at present
  rw [carries, Option.some.inj present]
  exact covered

/-- `get_book` finds a product that has covered anything. -/
theorem Covers.answered
    {serial : Nat}
    {prodId : List UInt8}
    (covers : Covers (manager.productAt (trimProdId prodId)) serial)
    (asked : commit.label = .getBook prodId)
    (performs : (manager.perform commit.label).2 = (commit.collected, commit.value)) :
    ∃ book, commit.value = .book (some book) := by
  obtain ⟨st, found, _⟩ := covers
  rw [asked] at performs
  refine ⟨st.book.stamp st.isStale, (congrArg Prod.snd performs).symm.trans ?_⟩
  exact congrArg Answer.book (congrArg _ found)

end Commits

section Threads

variable
  {θ : Type}
  [DecidableEq θ]
  {listeners : Listeners θ}
  {interpreted : θ → Bool}
  {program : θ → List (Request θ Access)}
  {manager : OrderBookManager}
  {config last : Config OrderBookManager Access Aftermath Answer CallbackAction θ}

/-- Nothing goes back.  As long as nobody resets the manager, however the instructions
of the threads and their callbacks are mixed, whatever has ended at some moment comes
before whatever ends later, on whichever threads: a book that `get_book` returns or that
is collected for the callbacks later has a serial at least as high as every book of the
product handed out before, and as every message of the product fed before; and once a
message of a product has been fed, `get_book` finds the product. -/
theorem nothing_goes_back
    (keyed : manager.Keyed)
    (lawful : (OrderBookManager.monitor listeners).Lawful program
      fun _ request => ∀ accessed ∈ request.labels, ∀ fed ∈ accessed.steps,
        fed.isReset = false)
    (reachable : (OrderBookManager.monitor listeners).Reachable
      (start manager interpreted program) config)
    (continued : (OrderBookManager.monitor listeners).Reachable config last) :
    ∃ recent, last.committed = config.committed ++ recent ∧
      ∀ ended ∈ config.committed, ∀ commit ∈ recent,
        (∀ other ∈ handedOut ended, ∀ book ∈ handedOut commit,
          InSerialOrder other book) ∧
        ∀ fed prodId message, ended.label = .operate (.feed fed) →
          fed.message = some (prodId, message) →
          (∀ book ∈ handedOut commit, book.prodId.key = prodId.key →
            message.serial ≤ book.lastProdMsgSeq) ∧
          ∀ asked, commit.label = .getBook asked → trimProdId asked = prodId.key →
            ∃ book, commit.value = .book (some book) := by
  obtain ⟨recent, committed⟩ := continued.committed_prefix
  refine ⟨recent, committed.symm, fun ended isEnded commit isRecent => ?_⟩
  have reached : (OrderBookManager.monitor listeners).Reachable
      (start manager interpreted program) last := reachable.trans continued
  have noReset : ∀ commit ∈ last.committed, ∀ fed ∈ commit.label.steps,
      fed.isReset = false :=
    reached.legal (fun _ accessed => ∀ fed ∈ accessed.steps, fed.isReset = false) lawful
  -- Where the two accesses stand in the order of the commits.
  obtain ⟨earlier, between, split⟩ := List.append_of_mem isEnded
  obtain ⟨meanwhile, rest, recentSplit⟩ := List.append_of_mem isRecent
  have endedAt : last.committed = earlier ++ ended :: (between ++ recent) := by
    rw [← committed, split, List.append_assoc, List.cons_append]
  have commitAt : last.committed =
      (earlier ++ ended :: (between ++ meanwhile)) ++ commit :: rest := by
    rw [endedAt, recentSplit]
    simp only [List.append_assoc, List.cons_append]
  have endedPerforms := perform_at reached endedAt
  have commitPerforms := perform_at reached commitAt
  have endedKept := noReset ended (by simp [endedAt])
  have commitKept := noReset commit (by simp [commitAt])
  have keyedBefore := OrderBookManager.keyed_accessing keyed (earlier.map Commit.label)
  have keyedAfter := OrderBookManager.keyed_accessing keyed
    ((earlier ++ ended :: (between ++ meanwhile)).map Commit.label)
  -- What the first access covers is still covered when the second one begins.
  have stays : ∀ {key serial}, Covers
      (((OrderBookManager.accessing.final manager (earlier.map Commit.label)).perform
        ended.label).1.productAt key) serial →
      Covers ((OrderBookManager.accessing.final manager
        ((earlier ++ ended :: (between ++ meanwhile)).map Commit.label)).productAt key)
          serial := by
    intro key serial covers
    rw [List.map_append, List.map_cons, Machine.final_append, Machine.final_cons]
    refine Covers.accessing_final (fun accessed member => ?_) covers
    obtain ⟨other, isBetween, rfl⟩ := List.mem_map.mp member
    apply noReset other
    rw [commitAt]
    exact List.mem_append_left _
      (List.mem_append_right _ (List.mem_cons_of_mem _ isBetween))
  refine ⟨fun other old book handed same => ?_, fun fed prodId message isFeed carries => ?_⟩
  · obtain ⟨st, found, carries⟩ :=
      OrderBookManager.lastSerial_of_handedOut keyedBefore endedKept endedPerforms old
    have covers := stays ⟨st, found, carries.le⟩
    rw [same] at covers
    exact UInt32.le_iff_toNat_le.mpr
      (covers.le_handedOut keyedAfter commitKept commitPerforms handed)
  · have covers := stays (isFeed ▸ covers_of_fed _ carries)
    refine ⟨fun book handed same => ?_, fun asked isAsked trimmed => ?_⟩
    · rw [← same] at covers
      exact UInt32.le_iff_toNat_le.mpr
        (covers.le_handedOut keyedAfter commitKept commitPerforms handed)
    · rw [← trimmed] at covers
      exact covers.answered isAsked commitPerforms

end Threads

/-- The receive thread has fed its first message; what the callback, the Python thread
and the receive thread do after that does not go back behind it. -/
theorem nothing_goes_back_after_first :
    let first := TwoThreads.after (TwoThreads.inside ++ List.replicate 9 true)
    let last := play (OrderBookManager.monitor TwoThreads.listeners) TwoThreads.react first
      ([false, false] ++ List.replicate 20 true ++ List.replicate 20 false ++
        List.replicate 60 true ++ List.replicate 10 false)
    first.committed.length = 1 ∧
      ∃ recent, last.committed = first.committed ++ recent ∧ recent.length = 4 ∧
        ∀ ended ∈ first.committed, ∀ commit ∈ recent, ∀ other ∈ handedOut ended,
          ∀ book ∈ handedOut commit, InSerialOrder other book := by
  intro first last
  have lawful := TwoThreads.lawful_of_accesses
    (show ∀ thread, ∀ request ∈ TwoThreads.program thread, ∀ accessed ∈ request.labels,
      ∀ fed ∈ accessed.steps, fed.isReset = false by decide) (by decide)
  obtain ⟨recent, split, ordered⟩ := nothing_goes_back
    (OrderBookManager.Blank.keyed ⟨rfl, rfl⟩) lawful
    (TwoThreads.reachable (TwoThreads.inside ++ List.replicate 9 true))
    (reachable_play (fun _ _ => rfl) first
      ([false, false] ++ List.replicate 20 true ++ List.replicate 20 false ++
        List.replicate 60 true ++ List.replicate 10 false))
  have one : first.committed.length = 1 := by decide +kernel
  have same : last = TwoThreads.after TwoThreads.whole := by
    simp only [last, first, TwoThreads.after, TwoThreads.whole, play, List.foldl_append]
  have five : last.committed.length = 5 := by
    rw [same]
    decide +kernel
  refine ⟨one, recent, split, ?_, fun ended isEnded commit isRecent =>
    (ordered ended isEnded commit isRecent).1⟩
  rw [split, List.length_append, one] at five
  omega

end TaifexResolver
