import ObjectModel.Machine.Run
import ObjectModel.Proofs.Machine.Exec

/-!
Contract: internal methods that are told whether their caller is strict.

`Call.run` answers a refusal with its reason, and leaves it to the caller what to make of
it. In `Flagged.run` the flag of the caller is handed down instead, and a refusal is an error
for a strict caller where it is found. Some methods pass the flag on; proxies, and the
protection of their properties, ask others with a flag of their own and convert the verdict.
User code gets verdicts, which it may report as it likes.

How ordinary objects search their prototypes is open (`Strategy`), so that the same link
between strict and sloppy runs (`Flagged.run_reports`) serves more than one way to do it.

Does not own: what follows for callers.
-/

namespace ObjectModel

variable {σ α : Type}

namespace Exec

/-- A failed operation: an error in strict mode. -/
def refuse (strict : Bool) (reason : TypeFault) : Exec σ Verdict :=
  if strict then typeError reason else return .refused reason

/-- A verdict as the caller sees it. -/
def report (strict : Bool) : Verdict → Exec σ Verdict
  | .accepted => return .accepted
  | .refused reason => refuse strict reason

theorem report_false : (report false : Verdict → Exec σ Verdict) = pure := by
  funext verdict
  cases verdict <;> rfl

/-- A sloppy caller sees the verdict as it is. -/
theorem bind_report_false (computation : Exec σ Verdict) :
    computation >>= report false = computation := by
  rw [report_false, bind_pure]

/-- A refusal is reported after the computation was closed as it is before. -/
theorem andFinally_report (strict : Bool) (computation : Exec σ Verdict)
    (close : World σ → World σ) :
    (computation >>= report strict).andFinally close =
      computation.andFinally close >>= report strict := by
  funext world
  simp only [andFinally, bind_apply]
  cases computation world with
  | error fault after => rfl
  | ok verdict after =>
      cases verdict with
      | accepted => rfl
      | refused reason => cases strict <;> rfl

theorem holding_report (strict : Bool) (objects : List ObjectId)
    (computation : Exec σ Verdict) :
    holding objects (computation >>= report strict) =
      holding objects computation >>= report strict := by
  simp only [holding, andFinally_report, bind_assoc]

theorem inProxyFrame_report (strict : Bool) (proxy : ObjectId)
    (computation : Exec σ Verdict) :
    inProxyFrame proxy (computation >>= report strict) =
      inProxyFrame proxy computation >>= report strict := by
  funext world
  simp only [inProxyFrame, bind_apply, andFinally_report]
  split <;> rfl

end Exec

theorem Machine.byKind_report (strict : Bool) (id : ObjectId)
    (exotic ordinary : Exec σ Verdict) :
    byKind id (exotic >>= Exec.report strict) (ordinary >>= Exec.report strict) =
      byKind id exotic ordinary >>= Exec.report strict := by
  simp only [byKind, Exec.inProxyFrame_report, bind_assoc]
  congr 1
  funext heap
  split <;> rfl

/-! ### Searches -/

/-- What a lookup does with the property that it finds, with an object that it leaves the
rest of the search to, and where there is no property. -/
structure Search (σ α : Type) where
  found : (inHand : List ObjectId) → Attributes → Slot → Exec σ α
  next : ObjectId → Exec σ α
  missing : Exec σ α

/-- The search with its verdict reported. -/
def Search.report (strict : Bool) (search : Search σ Verdict) : Search σ Verdict where
  found inHand attributes slot := search.found inHand attributes slot >>= Exec.report strict
  next id := search.next id >>= Exec.report strict
  missing := search.missing >>= Exec.report strict

/-- How an ordinary object searches itself and its prototypes for a key. -/
structure Strategy (σ : Type) where
  search : {α : Type} → Search σ α → ObjectId → PropertyKey → Exec σ α
  search_report : ∀ strict (lookup : Search σ Verdict) id key,
    search (lookup.report strict) id key = search lookup id key >>= Exec.report strict

/-- What a lookup does with the end of a walk. An exotic object is in hand until it is done
with the rest of the search. -/
def Search.resolve (lookup : Search σ α) (heap : Heap) : ChainResult → Exec σ α
  | .found holder attributes slot => lookup.found (heap.inHand holder slot) attributes slot
  | .exotic next => Exec.holding [next] (lookup.next next)
  | .missing => lookup.missing

/-- The search that walks along the chain, and leaves the rest to an exotic object. -/
def Strategy.walking : Strategy σ where
  search lookup id key := do
    let heap ← Exec.heap
    lookup.resolve heap (heap.findProperty id key)
  search_report strict lookup id key := by
    rw [bind_assoc]
    congr 1
    funext heap
    cases heap.findProperty id key with
    | exotic next => exact Exec.holding_report strict [next] (lookup.next next)
    | _ => rfl

namespace Search

variable (dispatch : Dispatch σ) (key : PropertyKey)

def get (receiver : Value) : Search σ (Option Value) where
  found inHand _ slot := return some (← Machine.readSlot dispatch inHand receiver slot)
  next id := dispatch (.get id key receiver)
  missing := return none

def has : Search σ Bool where
  found _ _ _ := return true
  next id := dispatch (.has id key)
  missing := return false

end Search

/-- Internal methods that are told whether their caller is strict. -/
abbrev FlaggedDispatch (σ : Type) := (strict : Bool) → Dispatch σ

/-- An answer as the caller sees it. -/
def Call.report (strict : Bool) : (method : Call) → method.Answer → Exec σ method.Answer
  | .preventExtensions _ => Exec.report strict
  | .defineOwnProperty _ _ _ => Exec.report strict
  | .set _ _ _ _ => Exec.report strict
  | .delete _ _ => Exec.report strict
  | _ => pure

namespace Flagged

variable (dispatch : FlaggedDispatch σ) (strict : Bool)

/-! ### Methods with a flag -/

/-- `Machine.setWithOwn`. A definition on the receiver is for the same caller. -/
def setWithOwn (own : Descriptor) (key : PropertyKey) (value receiver : Value) :
    Exec σ Verdict := do
  if own.isAccessor then
    match own.setter? with
    | some setter =>
        let _ ← dispatch false (.call setter receiver [value])
        return .accepted
    | none => Exec.refuse strict (.noSetter key)
  else if !own.isWritable then
    Exec.refuse strict (.readOnly key)
  else
    match receiver with
    | .object target =>
        match ← dispatch false (.getOwnProperty target key) with
        | some existing =>
            if existing.isAccessor then Exec.refuse strict (.cannotRedefine key)
            else if !existing.isWritable then Exec.refuse strict (.readOnly key)
            else
              let heap ← Exec.heap
              if !heap.isExotic target && heap.hasData target key then
                Exec.changeHeap fun heap => heap.writeData target key value
                return .accepted
              else
                Exec.holding existing.references
                  (dispatch strict (.defineOwnProperty target key { value := some value }))
        | none => dispatch strict (.createData target key value)
    | _ => Exec.refuse strict (.primitiveReceiver key)

/-- Protects the listed properties to a level, with definitions that may not be refused. -/
def protectKeys (id : ObjectId) (level : Integrity) : List PropertyKey → Exec σ Unit
  | [] => return ()
  | key :: rest => do
      match ← Machine.protectingChange (dispatch false) id level key with
      | none => protectKeys id level rest
      | some change =>
          let _ ← dispatch true (.defineOwnProperty id key change)
          protectKeys id level rest

def setIntegrity (id : ObjectId) (level : Integrity) : Exec σ Verdict := do
  if !(← Exec.heap).isExotic id then
    Exec.changeHeap fun heap => heap.setIntegrity id level
    return .accepted
  else
    match ← dispatch false (.preventExtensions id) with
    | .refused _ => Exec.refuse strict .cannotPreventExtensions
    | .accepted =>
        protectKeys dispatch id level (← dispatch false (.allKeys id))
        return .accepted

/-- A write. An object that goes on with the search does so for the same caller. -/
def setSearch (key : PropertyKey) (value receiver : Value) : Search σ Verdict where
  found inHand attributes slot :=
    Exec.holding inHand
      (setWithOwn dispatch strict (.ofStored attributes slot) key value receiver)
  next id := dispatch strict (.set id key value receiver)
  missing := setWithOwn dispatch strict (.data .undefined .assigned) key value receiver

open Machine in
/-- One internal method. Proxies ask for themselves, and report to the caller. -/
def step (strategy : Strategy σ) (host : Host σ) : Dispatch σ
  | .preventExtensions id =>
      byKind id (proxyPreventExtensions (dispatch false) id >>= Exec.report strict)
        (Exec.onHeap (fun heap => (heap.preventExtensions id, .accepted)) >>=
          Exec.report strict)
  | .defineOwnProperty id key change =>
      byKind id (proxyDefineOwnProperty (dispatch false) id key change >>= Exec.report strict)
        (Exec.onHeapOrRaise (·.defineOwn id key change) >>= Exec.report strict)
  | .has id key =>
      byKind id (proxyHas (dispatch false) id key)
        (strategy.search (.has (dispatch false) key) id key)
  | .get id key receiver =>
      byKind id (proxyGet (dispatch false) id key receiver)
        (strategy.search (.get (dispatch false) key receiver) id key)
  | .set id key value receiver =>
      byKind id (proxySet (dispatch false) id key value receiver >>= Exec.report strict)
        (strategy.search (setSearch dispatch strict key value receiver) id key)
  | .delete id key =>
      byKind id (proxyDelete (dispatch false) id key >>= Exec.report strict)
        (Exec.onHeap (·.deleteOwn id key) >>= Exec.report strict)
  | method => Call.step host (dispatch false) method

/-- Runs an internal method for a caller, with methods nested at most `fuel` deep. -/
def run (strategy : Strategy σ) (host : Host σ) : (fuel : Nat) → FlaggedDispatch σ
  | 0, _, _ => Exec.outOfFuel
  | fuel + 1, strict, method => step (run strategy host fuel) strict strategy host method

/-! ### Strict and sloppy callers -/

/-- A strict caller gets the answer that a sloppy one gets, reported. -/
def Reports (dispatch : FlaggedDispatch σ) : Prop :=
  ∀ strict method, dispatch strict method = dispatch false method >>= Call.report strict method

variable {dispatch} (reports : Reports dispatch)

include reports

theorem setWithOwn_reports (own : Descriptor) (key : PropertyKey) (value receiver : Value) :
    setWithOwn dispatch strict own key value receiver =
      setWithOwn dispatch false own key value receiver >>= Exec.report strict := by
  unfold setWithOwn
  split
  · split
    · simp only [bind_assoc, pure_bind, Exec.report]
    · rfl
  split
  · rfl
  split
  · rw [bind_assoc]
    congr 1
    funext existing
    cases existing with
    | none => exact reports strict _
    | some existing =>
        simp only
        split
        · rfl
        split
        · rfl
        rw [bind_assoc]
        congr 1
        funext heap
        split
        · simp only [bind_assoc, pure_bind, Exec.report]
        · rw [reports strict]
          exact Exec.holding_report strict _ _
  · rfl

/-- The protection of properties converts refusals itself. -/
theorem protectKeys_reports (id : ObjectId) (level : Integrity) (keys : List PropertyKey) :
    protectKeys dispatch id level keys =
      Machine.protectKeys (dispatch false) id level keys := by
  induction keys with
  | nil => rfl
  | cons key rest inductionHypothesis =>
      unfold protectKeys Machine.protectKeys
      congr 1
      funext change
      cases change with
      | none => exact inductionHypothesis
      | some change =>
          simp only
          rw [reports true, bind_assoc]
          congr 1
          funext verdict
          cases verdict with
          | accepted => exact inductionHypothesis
          | refused reason => rfl

theorem setIntegrity_reports (id : ObjectId) (level : Integrity) :
    setIntegrity dispatch strict id level =
      Machine.setIntegrity (dispatch false) id level >>= Exec.report strict := by
  unfold setIntegrity Machine.setIntegrity
  rw [bind_assoc]
  congr 1
  funext heap
  split
  · simp only [bind_assoc, pure_bind, Exec.report]
  · rw [bind_assoc]
    congr 1
    funext verdict
    cases verdict with
    | refused reason => rfl
    | accepted =>
        simp only [protectKeys_reports reports, bind_assoc, pure_bind, Exec.report]

theorem setSearch_reports (key : PropertyKey) (value receiver : Value) :
    setSearch dispatch strict key value receiver =
      (setSearch dispatch false key value receiver).report strict := by
  simp only [setSearch, Search.report, ← Exec.holding_report]
  congr 1
  · funext inHand attributes slot
    rw [setWithOwn_reports strict reports]
  · funext id
    exact reports strict _
  · exact setWithOwn_reports strict reports _ _ _ _

theorem step_reports (strategy : Strategy σ) (host : Host σ) (method : Call) :
    step dispatch strict strategy host method =
      step dispatch false strategy host method >>= Call.report strict method := by
  cases method with
  | preventExtensions id =>
      simp only [step, Machine.byKind_report, Exec.bind_report_false]
      rfl
  | defineOwnProperty id key change =>
      simp only [step, Machine.byKind_report, Exec.bind_report_false]
      rfl
  | set id key value receiver =>
      simp only [step, setSearch_reports strict reports, strategy.search_report,
        Machine.byKind_report, Exec.bind_report_false]
      rfl
  | delete id key =>
      simp only [step, Machine.byKind_report, Exec.bind_report_false]
      rfl
  | _ => exact (bind_pure _).symm

omit reports in
/-- Whatever a method does for a strict caller, it does for a sloppy one. -/
theorem run_reports (strategy : Strategy σ) (host : Host σ) (fuel : Nat) :
    Reports (run strategy host fuel) := by
  induction fuel with
  | zero => exact fun _ _ => rfl
  | succ fuel inductionHypothesis =>
      exact fun strict method => step_reports strict inductionHypothesis strategy host method

omit reports in
/-- For a sloppy caller, methods that walk run as they do without flags. -/
theorem step_walking (host : Host σ) (method : Call) :
    step dispatch false .walking host method = Call.step host (dispatch false) method := by
  cases method <;> simp only [step, Call.step, Exec.bind_report_false] <;> rfl

omit reports in
theorem run_walking (host : Host σ) (fuel : Nat) :
    run .walking host fuel false = Call.run host fuel := by
  induction fuel with
  | zero => rfl
  | succ fuel inductionHypothesis =>
      funext method
      rw [run, Call.run, step_walking, inductionHypothesis]

end Flagged

end ObjectModel
