import TaifexResolver.Foundation.Monitor

/-!
# Executing a schedule

A schedule names the thread that moves next.  Following it is a function, so a
concrete execution of a monitor can be computed, and every state it reaches is
reachable.
-/

namespace TaifexResolver
namespace Monitor

variable {σ κ δ ρ ι θ : Type} [DecidableEq θ]

/-- The next move of a thread, when it has one.  The reactions to actions are chosen
by a function. -/
def nextMove
    (monitor : Monitor σ κ δ ρ ι θ)
    (react : θ → ι → List (Request θ κ))
    (config : Config σ κ δ ρ ι θ)
    (thread : θ) : Option (Config σ κ δ ρ ι θ) :=
  match config.stack thread with
  | [] => none
  | .user interpreted (.enter releases labels :: requests) :: below =>
      some (config.moveTo thread
        (.method releases labels :: .user interpreted requests :: below))
  | .user interpreted (.join releases other :: requests) :: below =>
      some (config.moveTo thread
        (.joining releases other :: .user interpreted requests :: below))
  | .joining _ other :: below =>
      if (config.stack other).isEmpty then some (config.moveTo thread below) else none
  | .user _ [] :: below => some (config.moveTo thread below)
  | .method releases (label :: labels) :: below =>
      match config.mutex with
      | some _ => none
      | none =>
          some { config.moveTo thread
              (.critical label (monitor.body label) [] ::
                .method releases labels :: below) with
            mutex := some thread }
  | .method _ [] :: below => some (config.moveTo thread below)
  | .critical label (.instruction effect emitted next) collected :: below =>
      some { config.moveTo thread
          (.critical label (next config.shared)
            (collected ++ emitted config.shared) :: below) with
        shared := effect config.shared }
  | .critical label (.result value) collected :: below =>
      some { config.moveTo thread (.acting (monitor.actions collected) :: below) with
        mutex := none
        committed := config.committed ++ [⟨thread, label, collected, value⟩] }
  | .acting (action :: pending) :: below =>
      some { config.moveTo thread
          (.user (monitor.interpreted action) (react thread action) ::
            .acting pending :: below) with
        performed := config.performed ++ [(thread, action)] }
  | .acting [] :: below => some (config.moveTo thread below)

/-- A move that is computed is a move. -/
theorem move_of_nextMove
    {monitor : Monitor σ κ δ ρ ι θ}
    {react : θ → ι → List (Request θ κ)}
    (reacts : ∀ thread action, react thread action ∈ monitor.reactions thread action)
    {config after : Config σ κ δ ρ ι θ}
    {thread : θ}
    (computed : nextMove monitor react config thread = some after) :
    Move monitor config thread after := by
  unfold nextMove at computed
  split at computed
  · cases computed
  · next top => cases computed; exact .call top
  · next top => cases computed; exact .wait top
  · next other below top =>
      split at computed
      · next done => cases computed; exact .joined top (List.isEmpty_iff.mp done)
      · cases computed
  · next top => cases computed; exact .leave top
  · next top =>
      split at computed
      · cases computed
      · next free => cases computed; exact .lock top free
  · next top => cases computed; exact .return top
  · next top => cases computed; exact .execute top
  · next top => cases computed; exact .unlock top
  · next top => cases computed; exact .act top (reacts _ _)
  · next top => cases computed; exact .acted top

/-- Give a thread its turn: it takes the interpreter's lock, waits for it, or makes
its next move. -/
def turn
    (monitor : Monitor σ κ δ ρ ι θ)
    (react : θ → ι → List (Request θ κ))
    (config : Config σ κ δ ρ ι θ)
    (thread : θ) : Config σ κ δ ρ ι θ :=
  if needsInterpreter (config.stack thread) = true ∧
      config.interpreter ≠ some thread then
    match config.interpreter with
    | none => { config with interpreter := some thread }
    | some _ => config
  else (nextMove monitor react config thread).getD config

/-- Follow a schedule. -/
def play
    (monitor : Monitor σ κ δ ρ ι θ)
    (react : θ → ι → List (Request θ κ))
    (config : Config σ κ δ ρ ι θ)
    (schedule : List θ) : Config σ κ δ ρ ι θ :=
  schedule.foldl (turn monitor react) config

/-- Every schedule leads to a reachable state. -/
theorem reachable_play
    {monitor : Monitor σ κ δ ρ ι θ}
    {react : θ → ι → List (Request θ κ)}
    (reacts : ∀ thread action, react thread action ∈ monitor.reactions thread action)
    (config : Config σ κ δ ρ ι θ)
    (schedule : List θ) :
    Reachable monitor config (play monitor react config schedule) := by
  induction schedule generalizing config with
  | nil => exact .refl
  | cons thread rest inductionHypothesis =>
      have first : Reachable monitor config (turn monitor react config thread) := by
        unfold turn
        split
        · next waits =>
            split
            · next free => exact .single (.advance (.take waits.1 free))
            · exact .refl
        · next runs =>
            cases computed : nextMove monitor react config thread with
            | none => exact .refl
            | some after =>
                refine .single (.advance (.move ?_ (move_of_nextMove reacts computed)))
                intro needed
                by_contra different
                exact runs ⟨needed, different⟩
      exact first.trans (inductionHypothesis _)

end Monitor
end TaifexResolver
