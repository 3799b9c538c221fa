import StatusBoard.Chat
import StatusBoard.MasterList
import StatusBoard.Store

/-!
# Procedures

A procedure is what the board does on one occasion, as a sequence of steps that each happen at once:
transactions on the store, calls to the chat platform and polls of the master list.  Anything may
happen between two steps.  `Procedure.run` carries a procedure out in given surroundings.
-/

namespace StatusBoard

/-- Why a poll of the master list fails. -/
inductive PollError
  /-- There is no list in the answer, or no answer; the reason is the client's own text. -/
  | http (reason : String)
  | status (code : Nat)
deriving DecidableEq

/-- The text shown for an error. -/
def PollError.message : PollError → String
  | http reason => s!"server list request failed: {reason}"
  | status code => s!"server list responded with status {code}"

/-- What a poll of the master list gives. -/
abbrev PollAnswer := Except PollError (List ListEntry)

/-- A sequence of steps that ends with a result. -/
inductive Procedure (α : Type) : Type 1
  | done (result : α)
  | transact {β : Type} (t : Transaction β) (next : Except StoreError β → Procedure α)
  | call (c : ChatCall) (next : Except ChatError c.Reply → Procedure α)
  | poll (next : PollAnswer → Procedure α)

/-- The surroundings of procedures: what each kind of step gives, and what it does to the state of
the surroundings. -/
structure Surroundings (σ : Type) where
  transact : {β : Type} → Transaction β → σ → Except StoreError β × σ
  call : (c : ChatCall) → σ → Response c.Reply × σ
  poll : σ → PollAnswer × σ

namespace Procedure

variable {α β σ : Type}

/-- Go on with another procedure. -/
def bind : Procedure α → (α → Procedure β) → Procedure β
  | done a, f => f a
  | transact t next, f => transact t fun r => (next r).bind f
  | call c next, f => call c fun r => (next r).bind f
  | poll next, f => poll fun r => (next r).bind f

instance : Monad Procedure where
  pure := done
  bind := bind

theorem bind_done (p : Procedure α) : p.bind done = p := by
  induction p with
  | done => rfl
  | transact t next ih => exact congrArg (transact t) (funext ih)
  | call c next ih => exact congrArg (call c) (funext ih)
  | poll next ih => exact congrArg poll (funext ih)

theorem bind_assoc {γ : Type} (p : Procedure α) (f : α → Procedure β) (g : β → Procedure γ) :
    (p.bind f).bind g = p.bind fun a => (f a).bind g := by
  induction p with
  | done => rfl
  | transact t next ih => exact congrArg (transact t) (funext ih)
  | call c next ih => exact congrArg (call c) (funext ih)
  | poll next ih => exact congrArg poll (funext ih)

instance : LawfulMonad Procedure :=
  LawfulMonad.mk' Procedure bind_done (fun _ _ => rfl) bind_assoc

/-- Carry out a procedure.  Calls that are not answered in time fail. -/
def run (env : Surroundings σ) : Procedure α → σ → α × σ
  | done a, s => (a, s)
  | transact t next, s => let (r, s) := env.transact t s; (next r).run env s
  | call c next, s => let (r, s) := env.call c s; (next r.inTime).run env s
  | poll next, s => let (r, s) := env.poll s; (next r).run env s

@[simp]
theorem run_pure (env : Surroundings σ) (a : α) (s : σ) :
    (pure a : Procedure α).run env s = (a, s) := rfl

theorem run_transact {env : Surroundings σ} {t : Transaction β} {r : Except StoreError β} {s s' : σ}
    (h : env.transact t s = (r, s')) (next : Except StoreError β → Procedure α) :
    (transact t next).run env s = (next r).run env s' := by
  rw [run, h]

/-- A procedure that goes on with another one is carried out one after the other. -/
@[simp]
theorem run_bind (env : Surroundings σ) (p : Procedure α) (f : α → Procedure β) (s : σ) :
    (p >>= f).run env s = (f (p.run env s).1).run env (p.run env s).2 := by
  change (p.bind f).run env s = _
  induction p generalizing s with
  | done => rfl
  | transact t next ih => exact ih _ _
  | call c next ih => exact ih _ _
  | poll next ih => exact ih _ _

/-- One transaction on the store. -/
def access (t : Transaction α) : ExceptT StoreError Procedure α := .mk (transact t done)

/-- One call to the chat platform. -/
def ask (c : ChatCall) : ExceptT ChatError Procedure c.Reply := .mk (call c done)

/-- One poll of the master list. -/
def fetch : ExceptT PollError Procedure (List ListEntry) := .mk (poll done)

end Procedure

end StatusBoard
