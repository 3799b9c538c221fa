import StatusBoard.Cycle
import StatusBoard.Rehearsal.Database

/-!
# Rehearsals

Surroundings in which procedures are carried out without a chat platform: calls are logged and
answered by rules, and polls by given answers.  A rehearsal may also store a snapshot by itself,
which the board does at the end of a cycle only.
-/

namespace StatusBoard

/-- The kinds of calls. -/
inductive CallKind
  | post
  | edit
  | delete
  | addReaction
  | removeReaction
deriving DecidableEq

namespace ChatCall

/-- The kind of a call. -/
def kind : ChatCall → CallKind
  | post .. => .post
  | edit .. => .edit
  | delete .. => .delete
  | addReaction .. => .addReaction
  | removeReaction .. => .removeReaction

/-- The message that a call is about; for a post the one that would get the next id. -/
def messageId (nextId : UInt64) : ChatCall → UInt64
  | post .. => nextId
  | edit r _ | delete r | addReaction r _ | removeReaction r _ _ => r.message

/-- The last argument of a call. -/
def lastArgument : ChatCall → String
  | post _ content | edit _ content => content
  | delete r => r.text
  | addReaction _ emoji | removeReaction _ _ emoji => emoji

end ChatCall

namespace Rehearsal

open Procedure

/-- Store a snapshot as the announced one. -/
def commitSnapshot (current : Snapshot) : ExceptT StoreError Procedure Bool := do
  Cycle.commit ((← access Store.load).changes current)

/-- What the platform does on a call. -/
inductive Outcome
  | succeed
  | fail (e : ChatError)
  | stall

/-- How the platform treats some calls.  Conditions that are absent hold of every call.  Before the
platform answers, others may work on the database. -/
structure Rule where
  kind : CallKind
  message : Option UInt64 := none
  argument : Option String := none
  once : Bool := false
  interference : Database → Database := id
  outcome : Outcome := .succeed

/-- Whether a rule is about a call. -/
def Rule.applies (r : Rule) (nextId : UInt64) (c : ChatCall) : Bool :=
  r.kind = c.kind && r.message.all (· = c.messageId nextId) && r.argument.all (· = c.lastArgument)

/-- The state of a rehearsal.  Calls are logged last first.  A poll takes the next answer; when none
is left, the last one stays in force. -/
structure Stage where
  database : Database := .opened {}
  rules : List Rule := []
  nextId : UInt64 := 1000
  answer : PollAnswer := .ok []
  upcoming : List PollAnswer := []
  calls : List ChatCall := []

namespace Stage

/-- Take the first rule that applies to a call out of a list, and keep it unless it applies once. -/
def takeRule (nextId : UInt64) (c : ChatCall) (rules : List Rule) : Option Rule × List Rule :=
  match rules with
  | [] => (none, [])
  | r :: rest =>
    if r.applies nextId c then (some r, if r.once then rest else r :: rest)
    else
      let (found, rest) := takeRule nextId c rest
      (found, r :: rest)

/-- Let a call succeed.  A post takes the next id. -/
def succeed (s : Stage) : (c : ChatCall) → c.Reply × Stage
  | .post .. => (s.nextId, { s with nextId := s.nextId + 1 })
  | .edit .. | .delete .. | .addReaction .. | .removeReaction .. => ((), s)

/-- Log a call and answer it by the first rule that applies. -/
def call (c : ChatCall) (s : Stage) : Response c.Reply × Stage :=
  let (rule, rules) := takeRule s.nextId c s.rules
  let rule := rule.getD { kind := c.kind }
  let s := { s with
    rules := rules, calls := c :: s.calls, database := rule.interference s.database }
  match rule.outcome with
  | .succeed => let (reply, s) := s.succeed c; (.answer (.ok reply), s)
  | .fail e => (.answer (.error e), s)
  | .stall => (.silence, s)

/-- Answer a poll. -/
def poll (s : Stage) : PollAnswer × Stage :=
  match s.upcoming with
  | [] => (s.answer, s)
  | a :: rest => (a, { s with answer := a, upcoming := rest })

/-- Access the store. -/
def access {α : Type} (t : Transaction α) (s : Stage) : Except StoreError α × Stage :=
  let (result, database) := s.database.access t
  (result, { s with database := database })

/-- The stage as surroundings of procedures. -/
def surroundings : Surroundings Stage := ⟨access, call, poll⟩

/-- Carry out a procedure on the stage. -/
def perform {α : Type} (p : Procedure α) (s : Stage) : α × Stage := p.run surroundings s

end Stage

end Rehearsal

end StatusBoard
