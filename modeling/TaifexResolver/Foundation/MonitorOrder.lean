import TaifexResolver.Foundation.Interleaving
import TaifexResolver.Foundation.Linearisation

/-!
# Nothing is lost, repeated or reordered

Every action that a committed section leaves behind is performed exactly once, by
the thread that committed it.  A thread whose actions do not call the monitor
commits its sections in the order of its program and performs their actions in the
order of the commits.
-/

namespace TaifexResolver
namespace Monitor

variable {σ κ δ ρ ι θ : Type}

/-- The sections that a request enters. -/
def Request.labels : Request θ κ → List κ
  | .enter _ labels => labels
  | .join _ _ => []

/-- The sections that an activation has left. -/
def Frame.labels : Frame σ κ δ ρ ι θ → List κ
  | .user _ requests => requests.flatMap Request.labels
  | .method _ labels => labels
  | .critical label _ _ => [label]
  | .acting _ => []
  | .joining _ _ => []

/-- The actions that an activation has left. -/
def Frame.pending : Frame σ κ δ ρ ι θ → List ι
  | .acting pending => pending
  | _ => []

/-- The sections that a thread has left, newest activation first. -/
def remaining (frames : List (Frame σ κ δ ρ ι θ)) : List κ :=
  frames.flatMap Frame.labels

/-- The actions that a thread has left, newest activation first. -/
def pending (frames : List (Frame σ κ δ ρ ι θ)) : List ι :=
  frames.flatMap Frame.pending

/-- A stack on which no section is entered while actions are left below. -/
def Settled : List (Frame σ κ δ ρ ι θ) → Prop
  | [] => True
  | frame :: below => (frame.labels = [] ∨ pending below = []) ∧ Settled below

/-- The actions of a thread do not enter the monitor. -/
def Quiet (monitor : Monitor σ κ δ ρ ι θ) (thread : θ) : Prop :=
  ∀ action, ∀ requests ∈ monitor.reactions thread action,
    requests.flatMap Request.labels = []

section Accounts

variable [DecidableEq θ]

/-- The sections that a thread has committed, in order. -/
def Config.labelsOf (config : Config σ κ δ ρ ι θ) (thread : θ) : List κ :=
  (config.committed.filter fun commit => commit.thread = thread).map Commit.label

/-- The actions that the committed sections of a thread leave behind, in order. -/
def Config.actionsOf
    (config : Config σ κ δ ρ ι θ)
    (monitor : Monitor σ κ δ ρ ι θ)
    (thread : θ) : List ι :=
  (config.committed.filter fun commit => commit.thread = thread).flatMap
    fun commit => monitor.actions commit.collected

/-- The actions that a thread has performed, in order. -/
def Config.performedBy (config : Config σ κ δ ρ ι θ) (thread : θ) : List ι :=
  (config.performed.filter fun item => item.1 = thread).map Prod.snd

/-- What a move does to the books of the thread that makes it. -/
inductive Account
    (monitor : Monitor σ κ δ ρ ι θ)
    (config : Config σ κ δ ρ ι θ)
    (thread : θ)
    (frames : List (Frame σ κ δ ρ ι θ))
    (after : Config σ κ δ ρ ι θ) : Prop
  | silent :
      after.committed = config.committed →
      after.performed = config.performed →
      remaining frames = remaining (config.stack thread) →
      pending frames = pending (config.stack thread) →
      (Settled (config.stack thread) → Settled frames) →
      Account monitor config thread frames after
  | commit (commit : Commit κ δ ρ θ) :
      commit.thread = thread →
      after.committed = config.committed ++ [commit] →
      after.performed = config.performed →
      remaining (config.stack thread) = commit.label :: remaining frames →
      pending frames =
        monitor.actions commit.collected ++ pending (config.stack thread) →
      (Settled (config.stack thread) →
        Settled frames ∧ pending (config.stack thread) = []) →
      Account monitor config thread frames after
  | perform (action : ι) (requests : List (Request θ κ)) :
      requests ∈ monitor.reactions thread action →
      after.committed = config.committed →
      after.performed = config.performed ++ [(thread, action)] →
      remaining frames =
        requests.flatMap Request.labels ++ remaining (config.stack thread) →
      pending (config.stack thread) = action :: pending frames →
      (requests.flatMap Request.labels = [] →
        Settled (config.stack thread) → Settled frames) →
      Account monitor config thread frames after

/-- Inversion: what every move does to the books. -/
theorem Move.account
    {monitor : Monitor σ κ δ ρ ι θ}
    {config after : Config σ κ δ ρ ι θ}
    {thread : θ}
    (move : Move monitor config thread after) :
    ∃ frames, after.stack = Function.update config.stack thread frames ∧
      Account monitor config thread frames after := by
  cases move with
  | @call interpreted releases labels requests below top =>
      refine ⟨_, rfl, .silent rfl rfl ?_ ?_ ?_⟩
      · rw [top]
        simp [remaining, Frame.labels, Request.labels]
      · rw [top]
        rfl
      · rw [top]
        intro settled
        simp only [Settled, Frame.labels, Request.labels, List.flatMap_cons,
          List.append_eq_nil_iff] at settled ⊢
        obtain ⟨labelled | clear, lower⟩ := settled
        · exact ⟨Or.inl labelled.1, Or.inl labelled.2, lower⟩
        · exact ⟨Or.inr clear, Or.inr clear, lower⟩
  | @wait interpreted releases other requests below top =>
      refine ⟨_, rfl, .silent rfl rfl ?_ ?_ ?_⟩
      · rw [top]
        rfl
      · rw [top]
        rfl
      · rw [top]
        exact fun settled => ⟨Or.inl rfl, settled⟩
  | @joined releases other below top done =>
      refine ⟨_, rfl, .silent rfl rfl ?_ ?_ ?_⟩
      · rw [top]
        rfl
      · rw [top]
        rfl
      · rw [top]
        exact And.right
  | @leave interpreted below top =>
      refine ⟨_, rfl, .silent rfl rfl ?_ ?_ ?_⟩
      · rw [top]
        rfl
      · rw [top]
        rfl
      · rw [top]
        exact And.right
  | @lock releases label labels below top free =>
      refine ⟨_, rfl, .silent rfl rfl ?_ ?_ ?_⟩
      · rw [top]
        rfl
      · rw [top]
        rfl
      · rw [top]
        rintro ⟨labelled | clear, lower⟩
        · cases labelled
        · exact ⟨Or.inr clear, Or.inr clear, lower⟩
  | @«return» releases below top =>
      refine ⟨_, rfl, .silent rfl rfl ?_ ?_ ?_⟩
      · rw [top]
        rfl
      · rw [top]
        rfl
      · rw [top]
        exact And.right
  | @execute label effect emitted next collected below top =>
      refine ⟨_, rfl, .silent rfl rfl ?_ ?_ ?_⟩
      · rw [top]
        rfl
      · rw [top]
        rfl
      · rw [top]
        exact id
  | @unlock label value collected below top =>
      refine ⟨_, rfl, .commit ⟨thread, label, collected, value⟩ rfl rfl rfl ?_ ?_ ?_⟩
      · rw [top]
        rfl
      · rw [top]
        rfl
      · rw [top]
        rintro ⟨labelled | clear, lower⟩
        · cases labelled
        · exact ⟨⟨Or.inl rfl, lower⟩, clear⟩
  | @act action left requests below top reacts =>
      refine ⟨_, rfl, .perform action requests reacts rfl rfl ?_ ?_ ?_⟩
      · rw [top]
        rfl
      · rw [top]
        rfl
      · rw [top]
        exact fun silent settled => ⟨Or.inl silent, settled⟩
  | @acted below top =>
      refine ⟨_, rfl, .silent rfl rfl ?_ ?_ ?_⟩
      · rw [top]
        rfl
      · rw [top]
        rfl
      · rw [top]
        exact And.right

/-! ## Books of one thread -/

section Books

variable
  {monitor : Monitor σ κ δ ρ ι θ}
  {config after : Config σ κ δ ρ ι θ}
  {thread : θ}
  {frames : List (Frame σ κ δ ρ ι θ)}

/-- A relation between the books of a thread and its stack survives the moves of the
other threads. -/
theorem Account.elsewhere
    (account : Account monitor config thread frames after)
    {other : θ}
    (different : thread ≠ other) :
    after.labelsOf other = config.labelsOf other ∧
      after.actionsOf monitor other = config.actionsOf monitor other ∧
      after.performedBy other = config.performedBy other := by
  cases account with
  | silent committed performed =>
      simp [Config.labelsOf, Config.actionsOf, Config.performedBy, committed, performed]
  | commit commit owner committed performed =>
      have notOther : commit.thread ≠ other := by
        rw [owner]
        exact different
      simp [Config.labelsOf, Config.actionsOf, Config.performedBy, committed, performed,
        notOther]
  | perform action requests reacts committed performed =>
      simp [Config.labelsOf, Config.actionsOf, Config.performedBy, committed, performed,
        different]

/-- The books of the thread that moves without committing or performing. -/
theorem books_of_silent
    (monitor : Monitor σ κ δ ρ ι θ)
    (thread : θ)
    (committed : after.committed = config.committed)
    (performed : after.performed = config.performed) :
    after.labelsOf thread = config.labelsOf thread ∧
      after.actionsOf monitor thread = config.actionsOf monitor thread ∧
      after.performedBy thread = config.performedBy thread := by
  simp [Config.labelsOf, Config.actionsOf, Config.performedBy, committed, performed]

/-- The books of a thread that commits. -/
theorem books_of_commit
    (monitor : Monitor σ κ δ ρ ι θ)
    {commit : Commit κ δ ρ θ}
    (owner : commit.thread = thread)
    (committed : after.committed = config.committed ++ [commit])
    (performed : after.performed = config.performed) :
    after.labelsOf thread = config.labelsOf thread ++ [commit.label] ∧
      after.actionsOf monitor thread =
        config.actionsOf monitor thread ++ monitor.actions commit.collected ∧
      after.performedBy thread = config.performedBy thread := by
  simp [Config.labelsOf, Config.actionsOf, Config.performedBy, committed, performed,
    owner]

/-- The books of a thread that performs an action. -/
theorem books_of_perform
    (monitor : Monitor σ κ δ ρ ι θ)
    {action : ι}
    (committed : after.committed = config.committed)
    (performed : after.performed = config.performed ++ [(thread, action)]) :
    after.labelsOf thread = config.labelsOf thread ∧
      after.actionsOf monitor thread = config.actionsOf monitor thread ∧
      after.performedBy thread = config.performedBy thread ++ [action] := by
  simp [Config.labelsOf, Config.actionsOf, Config.performedBy, committed, performed]

end Books

/-! ## Runs -/

section Runs

variable
  {monitor : Monitor σ κ δ ρ ι θ}
  {shared : σ}
  {interpreted : θ → Bool}
  {program : θ → List (Request θ κ)}
  {config : Config σ κ δ ρ ι θ}

/-- Invariant rule for the books of one thread. -/
theorem Reachable.books
    (reachable : Reachable monitor (start shared interpreted program) config)
    (thread : θ)
    (holds : List κ → List ι → List ι → List (Frame σ κ δ ρ ι θ) → Prop)
    (initial : holds [] [] [] [.user (interpreted thread) (program thread)])
    (moved : ∀ config after frames,
      Account monitor config thread frames after →
      holds (config.labelsOf thread) (config.actionsOf monitor thread)
        (config.performedBy thread) (config.stack thread) →
      holds (after.labelsOf thread) (after.actionsOf monitor thread)
        (after.performedBy thread) frames) :
    holds (config.labelsOf thread) (config.actionsOf monitor thread)
      (config.performedBy thread) (config.stack thread) := by
  apply reachable.invariant_of_moves fun config =>
    holds (config.labelsOf thread) (config.actionsOf monitor thread)
      (config.performedBy thread) (config.stack thread)
  · exact initial
  · exact fun _ _ held => held
  · intro config mover after held move
    obtain ⟨frames, stack, account⟩ := move.account
    rw [stack]
    by_cases same : mover = thread
    · subst same
      rw [Function.update_self]
      exact moved config after frames account held
    · obtain ⟨labels, actions, performed⟩ := account.elsewhere same
      rw [Function.update_of_ne (Ne.symm same), labels, actions, performed]
      exact held

/-- Every action left behind is performed exactly once: the actions performed and
those still pending are the actions of the committed sections. -/
theorem Reachable.performed_perm
    (reachable : Reachable monitor (start shared interpreted program) config)
    (thread : θ) :
    (config.performedBy thread ++ pending (config.stack thread)).Perm
      (config.actionsOf monitor thread) := by
  apply reachable.books thread fun _ actions performed frames =>
    (performed ++ pending frames).Perm actions
  · exact List.Perm.refl []
  · intro config after frames account held
    cases account with
    | silent committed performed _ pendingKept _ =>
        obtain ⟨_, actions, acted⟩ := books_of_silent
          monitor thread committed performed
        rw [actions, acted, pendingKept]
        exact held
    | commit commit owner committed performed _ pendingGrows _ =>
        obtain ⟨_, actions, acted⟩ := books_of_commit
          monitor owner committed performed
        rw [actions, acted, pendingGrows]
        have regrouped := List.perm_append_comm_assoc (config.performedBy thread)
          (monitor.actions commit.collected) (pending (config.stack thread))
        exact (regrouped.trans (held.append_left _)).trans List.perm_append_comm
    | perform action requests _ committed performed _ pendingShrinks _ =>
        obtain ⟨_, actions, acted⟩ := books_of_perform
          monitor committed performed
        rw [pendingShrinks] at held
        rw [actions, acted, List.append_assoc]
        exact held

/-- An action that was performed was left behind by a section that the thread
committed. -/
theorem Reachable.commit_of_performed
    (reachable : Reachable monitor (start shared interpreted program) config)
    {thread : θ}
    {action : ι}
    (performed : (thread, action) ∈ config.performed) :
    ∃ commit ∈ config.committed, commit.thread = thread ∧
      action ∈ monitor.actions commit.collected := by
  have listed : action ∈ config.performedBy thread := by
    simpa [Config.performedBy] using performed
  have left := (reachable.performed_perm thread).subset (List.mem_append_left _ listed)
  obtain ⟨commit, member, emitted⟩ := List.mem_flatMap.mp left
  rw [List.mem_filter, decide_eq_true_eq] at member
  exact ⟨commit, member.1, member.2, emitted⟩

/-- When the threads and their actions only enter sections that are legal for them,
only these are committed. -/
theorem Reachable.legal
    (reachable : Reachable monitor (start shared interpreted program) config)
    (legal : θ → κ → Prop)
    (lawful : Lawful monitor program fun thread request =>
      ∀ label ∈ request.labels, legal thread label) :
    ∀ commit ∈ config.committed, legal commit.thread commit.label := by
  have books : ∀ thread, (∀ label ∈ config.labelsOf thread, legal thread label) ∧
      ∀ label ∈ remaining (config.stack thread), legal thread label := by
    intro thread
    apply reachable.books thread fun labels _ _ frames =>
      (∀ label ∈ labels, legal thread label) ∧
        ∀ label ∈ remaining frames, legal thread label
    · refine ⟨fun label member => (List.not_mem_nil member).elim, ?_⟩
      intro label member
      simp only [remaining, List.flatMap_cons, List.flatMap_nil, List.append_nil,
        Frame.labels, List.mem_flatMap] at member
      obtain ⟨request, asked, entered⟩ := member
      exact lawful.program thread request asked label entered
    · intro config after frames account held
      cases account with
      | silent committed performed remainingKept _ _ =>
          obtain ⟨labels, _, _⟩ := books_of_silent
            monitor thread committed performed
          rw [labels, remainingKept]
          exact held
      | commit commit owner committed performed remainingShrinks _ _ =>
          obtain ⟨labels, _, _⟩ := books_of_commit
            monitor owner committed performed
          rw [remainingShrinks, List.forall_mem_cons] at held
          rw [labels, List.forall_mem_append, List.forall_mem_singleton]
          exact ⟨⟨held.1, held.2.1⟩, held.2.2⟩
      | perform action requests reacts committed performed remainingGrows _ _ =>
          obtain ⟨labels, _, _⟩ := books_of_perform
            monitor committed performed
          rw [labels, remainingGrows, List.forall_mem_append]
          refine ⟨held.1, fun label member => ?_, held.2⟩
          obtain ⟨request, asked, entered⟩ := List.mem_flatMap.mp member
          exact lawful.reactions thread action requests reacts request asked label entered
  intro commit committed
  apply (books commit.thread).1
  exact List.mem_map.mpr ⟨commit, List.mem_filter.mpr ⟨committed, by simp⟩, rfl⟩

/-- What the sections of a thread count for is committed in the order of its
program, when the sections that its actions enter count for nothing. -/
theorem Reachable.counted_in_order
    (reachable : Reachable monitor (start shared interpreted program) config)
    {α : Type}
    (counted : κ → List α)
    {thread : θ}
    (silent : ∀ action, ∀ requests ∈ monitor.reactions thread action,
      (requests.flatMap Request.labels).flatMap counted = []) :
    (config.labelsOf thread).flatMap counted ++
        (remaining (config.stack thread)).flatMap counted =
      ((program thread).flatMap Request.labels).flatMap counted := by
  apply reachable.books thread fun labels _ _ frames =>
    labels.flatMap counted ++ (remaining frames).flatMap counted =
      ((program thread).flatMap Request.labels).flatMap counted
  · simp [remaining, Frame.labels]
  · intro config after frames account held
    cases account with
    | silent committed performed remainingKept _ _ =>
        obtain ⟨labels, _, _⟩ := books_of_silent
          monitor thread committed performed
        rw [labels, remainingKept]
        exact held
    | commit commit owner committed performed remainingShrinks _ _ =>
        obtain ⟨labels, _, _⟩ := books_of_commit
          monitor owner committed performed
        rw [remainingShrinks] at held
        rw [labels, ← List.flatMap_append, List.append_assoc, List.flatMap_append]
        exact held
    | perform action requests reacts committed performed remainingGrows _ _ =>
        obtain ⟨labels, _, _⟩ := books_of_perform
          monitor committed performed
        rw [labels, remainingGrows, List.flatMap_append, silent action requests reacts]
        exact held

/-- A quiet thread commits the sections of its program in order. -/
theorem Reachable.program_order
    (reachable : Reachable monitor (start shared interpreted program) config)
    {thread : θ}
    (quiet : monitor.Quiet thread) :
    config.labelsOf thread ++ remaining (config.stack thread) =
      (program thread).flatMap Request.labels := by
  have ordered := reachable.counted_in_order (fun label => [label])
    (fun action requests reacts => by rw [quiet action requests reacts]; rfl)
  simpa only [List.flatMap_singleton'] using ordered

/-- A quiet thread performs the actions of its sections in the order of the
commits. -/
theorem Reachable.performed_in_order
    (reachable : Reachable monitor (start shared interpreted program) config)
    {thread : θ}
    (quiet : monitor.Quiet thread) :
    config.performedBy thread ++ pending (config.stack thread) =
      config.actionsOf monitor thread := by
  suffices ordered : Settled (config.stack thread) ∧
      config.performedBy thread ++ pending (config.stack thread) =
        config.actionsOf monitor thread from ordered.2
  apply reachable.books thread fun _ actions performed frames =>
    Settled frames ∧ performed ++ pending frames = actions
  · exact ⟨⟨Or.inr rfl, trivial⟩, rfl⟩
  · intro config after frames account held
    cases account with
    | silent committed performed _ pendingKept settledKept =>
        obtain ⟨_, actions, acted⟩ := books_of_silent
          monitor thread committed performed
        rw [actions, acted, pendingKept]
        exact ⟨settledKept held.1, held.2⟩
    | commit commit owner committed performed _ pendingGrows settledKept =>
        obtain ⟨_, actions, acted⟩ := books_of_commit
          monitor owner committed performed
        obtain ⟨settled, clear⟩ := settledKept held.1
        rw [clear, List.append_nil] at held pendingGrows
        rw [actions, acted, pendingGrows, held.2]
        exact ⟨settled, rfl⟩
    | perform action requests reacts committed performed _ pendingShrinks settledKept =>
        obtain ⟨_, actions, acted⟩ := books_of_perform
          monitor committed performed
        rw [pendingShrinks] at held
        rw [actions, acted, List.append_assoc]
        exact ⟨settledKept (quiet action requests reacts) held.1, held.2⟩

/-- What the commits count for merges what those of two threads count for, when those
of the other threads count for nothing. -/
theorem Config.interleaving
    (config : Config σ κ δ ρ ι θ)
    {α : Type}
    (counted : κ → List α)
    {first second : θ}
    (different : first ≠ second)
    (silent : ∀ commit ∈ config.committed, commit.thread ≠ first →
      commit.thread ≠ second → counted commit.label = []) :
    Interleaving ((config.labelsOf first).flatMap counted)
      ((config.labelsOf second).flatMap counted) (config.labels.flatMap counted) := by
  rw [Config.labelsOf, Config.labelsOf, Config.labels, List.flatMap_map,
    List.flatMap_map, List.flatMap_map]
  exact Interleaving.flatMap_of_tags different
    (fun commit : Commit κ δ ρ θ => counted commit.label) silent

end Runs
end Accounts
end Monitor
end TaifexResolver
