import ObjectModel.Machine.Proxy
import ObjectModel.Machine.Script

/-!
Contract: running internal methods.

`Call.step` is one internal method in terms of the others. `Call.run` ties the knot
with fuel: it bounds how deep methods nest, and running out of it is its own
outcome, never an error of the language.

A proxy enters a dispatch frame before it does anything else. Calling a proxy is the
exception: the call goes on to the target without a frame.
-/

namespace ObjectModel

variable {σ : Type}

namespace Machine

/-- A method by the kind of its object: `exotic` runs in a dispatch frame. -/
def byKind {α : Type} (id : ObjectId) (exotic ordinary : Exec σ α) : Exec σ α := do
  if (← Exec.heap).isExotic id then Exec.inProxyFrame id exotic else ordinary

/-- `[[Call]]`: runs the code of a function, or goes on to the target of a proxy. -/
def callObject (host : Host σ) (dispatch : Dispatch σ) (id : ObjectId) (this : Value)
    (arguments : List Value) : Exec σ Value := do
  match (← Exec.heap).kind id with
  | .ordinary => Exec.typeError .notFunction
  | .function _ (.code code) =>
      Exec.ofExcept (← (host code this arguments).exec (Request.perform dispatch))
  | .function _ (.revoke proxy) =>
      Exec.changeHeap (·.revoke proxy)
      return .undefined
  | .proxy link =>
      if link.revoked then Exec.typeError .revokedCall
      else dispatch (.call link.target this arguments)

end Machine

open Machine in
/-- One internal method, with `dispatch` for those it needs. -/
def Call.step (host : Host σ) (dispatch : Dispatch σ) : Dispatch σ
  | .getPrototypeOf id =>
      byKind id (proxyGetPrototypeOf dispatch id) (return (← Exec.heap).prototype id)
  | .setPrototypeOf id prototype =>
      byKind id (proxySetPrototypeOf dispatch id prototype)
        (Exec.onHeap (·.setPrototypeOf id prototype))
  | .isExtensible id =>
      byKind id (proxyIsExtensible dispatch id) (return (← Exec.heap).isExtensible id)
  | .preventExtensions id =>
      byKind id (proxyPreventExtensions dispatch id)
        (Exec.onHeap fun heap => (heap.preventExtensions id, .accepted))
  | .getOwnProperty id key =>
      byKind id (proxyGetOwnProperty dispatch id key) (return (← Exec.heap).getOwn id key)
  | .defineOwnProperty id key change =>
      byKind id (proxyDefineOwnProperty dispatch id key change)
        (Exec.onHeapOrRaise (·.defineOwn id key change))
  | .has id key => byKind id (proxyHas dispatch id key) (ordinaryHas dispatch id key)
  | .get id key receiver =>
      byKind id (proxyGet dispatch id key receiver) (ordinaryGet dispatch id key receiver)
  | .set id key value receiver =>
      byKind id (proxySet dispatch id key value receiver)
        (ordinarySet dispatch id key value receiver)
  | .delete id key =>
      byKind id (proxyDelete dispatch id key) (Exec.onHeap (·.deleteOwn id key))
  | .ownKeys id strings symbols => do
      let keys ← byKind id (proxyOwnKeys dispatch id) (return (← Exec.heap).ownKeys id)
      return keys.filter (·.isWanted strings symbols)
  | .call id this arguments => callObject host dispatch id this arguments

/-- Runs an internal method with methods nested at most `fuel` deep. -/
def Call.run (host : Host σ) : (fuel : Nat) → Dispatch σ
  | 0, _ => Exec.outOfFuel
  | fuel + 1, method => Call.step host (Call.run host fuel) method

/-- Runs a script of user code. -/
def Script.run {α : Type} (host : Host σ) (fuel : Nat) (script : Script σ α) : Exec σ α :=
  script.exec (Request.perform (Call.run host fuel))

end ObjectModel
