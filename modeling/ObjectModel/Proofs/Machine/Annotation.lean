import ObjectModel.Proofs.Machine.Requests

/-!
Contract: scripts that are another one with notes taken.

`Script.Annotates` relates a script to one that asks for the same requests and treats their
answers alike, but keeps more state. `view` is what the shorter script has of that state. Notes
change what `view` does not show, before or after anything else that the script does.

Does not own: what notes are for.
-/

namespace ObjectModel

variable {σ τ ρ α : Type} {allowed : Request → Prop}

/-- A script that asks for allowed requests only. -/
inductive Script.Asks (allowed : Request → Prop) : Script σ α → Prop
  | done (result : α) : Asks allowed (.done result)
  | ask (request : Request) (isAllowed : allowed request)
      {next : Except Error request.Answer → Script σ α}
      (rest : ∀ answer, Asks allowed (next answer)) : Asks allowed (.ask request next)
  | look {next : σ → Script σ α} (rest : ∀ state, Asks allowed (next state)) :
      Asks allowed (.look next)
  | update (change : σ → σ) {next : Script σ α} (rest : Asks allowed next) :
      Asks allowed (.update change next)

/-- The code of every function asks for allowed requests only. -/
def Host.Asks (allowed : Request → Prop) (host : Host σ) : Prop :=
  ∀ code this arguments, (host code this arguments).Asks allowed

theorem Script.asks_any (script : Script σ α) : script.Asks fun _ => True := by
  induction script with
  | done result => exact .done result
  | ask request next inductionHypothesis => exact .ask request trivial inductionHypothesis
  | look next inductionHypothesis => exact .look inductionHypothesis
  | update change next inductionHypothesis => exact .update change inductionHypothesis

theorem Script.IsWithin.asks {scope : Scope} {script : Script σ α}
    (within : script.IsWithin scope) : script.Asks fun request => request.Within scope := by
  induction within with
  | done result => exact .done result
  | ask request within rest inductionHypothesis => exact .ask request within inductionHypothesis
  | look rest inductionHypothesis => exact .look inductionHypothesis
  | update change rest inductionHypothesis => exact .update change inductionHypothesis

/-- The second script does what the first one does, on a state of which it shows the first
one's part. -/
inductive Script.Annotates (allowed : Request → Prop) (view : τ → σ) :
    Script σ α → Script τ α → Prop
  | done (result : α) : Annotates allowed view (.done result) (.done result)
  | ask (request : Request) (isAllowed : allowed request)
      {next : Except Error request.Answer → Script σ α}
      {next' : Except Error request.Answer → Script τ α}
      (rest : ∀ answer, Annotates allowed view (next answer) (next' answer)) :
      Annotates allowed view (.ask request next) (.ask request next')
  | look {next : σ → Script σ α} {next' : τ → Script τ α}
      (rest : ∀ state, Annotates allowed view (next (view state)) (next' state)) :
      Annotates allowed view (.look next) (.look next')
  | update {change : σ → σ} {change' : τ → τ} {next : Script σ α} {next' : Script τ α}
      (commutes : ∀ state, view (change' state) = change (view state))
      (rest : Annotates allowed view next next') :
      Annotates allowed view (.update change next) (.update change' next')
  | note {change' : τ → τ} {script : Script σ α} {next' : Script τ α}
      (unseen : ∀ state, view (change' state) = view state)
      (rest : Annotates allowed view script next') :
      Annotates allowed view script (.update change' next')

/-- The code of every function is annotated. -/
def Host.Annotates (allowed : Request → Prop) (view : τ → σ) (host : Host σ)
    (host' : Host τ) : Prop :=
  ∀ code this arguments,
    Script.Annotates allowed view (host code this arguments) (host' code this arguments)

theorem Script.Asks.annotates {script : Script σ α} (asks : script.Asks allowed) :
    Script.Annotates allowed id script script := by
  induction asks with
  | done result => exact .done result
  | ask request isAllowed rest inductionHypothesis =>
      exact .ask request isAllowed inductionHypothesis
  | look rest inductionHypothesis => exact .look inductionHypothesis
  | update change rest inductionHypothesis => exact .update (fun _ => rfl) inductionHypothesis

theorem Host.Asks.annotates {host : Host σ} (asks : host.Asks allowed) :
    Host.Annotates allowed id host host :=
  fun code this arguments => (asks code this arguments).annotates

/-! ### Scripts that leave more state alone -/

/-- The script with state beside its own, which it leaves alone. -/
def Script.beside (ρ : Type) : Script σ α → Script (σ × ρ) α
  | .done result => .done result
  | .ask request next => .ask request fun answer => (next answer).beside ρ
  | .look next => .look fun state => (next state.1).beside ρ
  | .update change next => .update (fun state => (change state.1, state.2)) (next.beside ρ)

def Host.beside (ρ : Type) (host : Host σ) : Host (σ × ρ) :=
  fun code this arguments => (host code this arguments).beside ρ

namespace Script.Annotates

/-- Notes can be taken beside further state. -/
theorem beside {view : τ → σ} {script : Script σ α} {script' : Script τ α}
    (annotates : Annotates allowed view script script') (ρ : Type) :
    Annotates allowed (Prod.map view id) (script.beside ρ) (script'.beside ρ) := by
  induction annotates with
  | done result => exact .done result
  | ask request isAllowed rest inductionHypothesis =>
      exact .ask request isAllowed inductionHypothesis
  | look rest inductionHypothesis => exact .look fun state => inductionHypothesis state.1
  | update commutes rest inductionHypothesis =>
      exact .update (fun state => Prod.ext (commutes state.1) rfl) inductionHypothesis
  | note unseen rest inductionHypothesis =>
      exact .note (fun state => Prod.ext (unseen state.1) rfl) inductionHypothesis

/-- Without the further state the script is the same. -/
theorem of_beside {script : Script σ α} (asks : script.Asks allowed) (state : ρ) :
    Annotates allowed (fun own => (own, state)) (script.beside ρ) script := by
  induction asks with
  | done result => exact .done result
  | ask request isAllowed rest inductionHypothesis =>
      exact .ask request isAllowed inductionHypothesis
  | look rest inductionHypothesis => exact .look inductionHypothesis
  | update change rest inductionHypothesis => exact .update (fun _ => rfl) inductionHypothesis

/-- Scripts agree where the second machine has the first one's state in view. -/
theorem similar {simulation : Simulation σ τ} {view : τ → σ} {script : Script σ α}
    {script' : Script τ α} (annotates : Annotates allowed view script script')
    (admits : ∀ request, allowed request → simulation.Admits request)
    (client_eq : ∀ {left right}, simulation.related left right →
      left.client = view right.client)
    (keeps : ∀ {left right}, simulation.related left right → ∀ client client',
      view client' = client → simulation.related { left with client := client }
        { right with client := client' }) : simulation.Similar script script' := by
  induction annotates with
  | done result => exact .done result
  | ask request isAllowed rest inductionHypothesis =>
      exact .ask request (admits request isAllowed) inductionHypothesis
  | look rest inductionHypothesis =>
      refine .look fun left right worlds => ?_
      rw [client_eq worlds]
      exact inductionHypothesis right.client
  | @update change change' next next' commutes rest inductionHypothesis =>
      refine .update (fun left right worlds => keeps worlds _ _ ?_) inductionHypothesis
      rw [commutes, client_eq worlds]
  | note unseen rest inductionHypothesis =>
      refine .note (fun left right worlds => keeps worlds left.client _ ?_) inductionHypothesis
      rw [unseen, client_eq worlds]

end Script.Annotates

end ObjectModel
