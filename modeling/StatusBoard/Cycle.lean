import StatusBoard.MasterList.Sighting
import StatusBoard.Mentions
import StatusBoard.Message.Content
import StatusBoard.Procedure
import StatusBoard.Store.Announced

/-!
# Poll cycles

A cycle polls the master list, compares what the tracked messages should show with what was
announced, edits the messages that differ, and stores what they show now.  A message that cannot be
edited is not tried again before its server changes; a message that is gone is not tracked any
more.  A content that cannot be formatted ends the cycle where it is, and the loop with it.
-/

namespace StatusBoard

/-- What a cycle did. -/
structure CycleReport where
  changedAddresses : List String
  new : Nat
  changed : Nat
  offline : Nat
  /-- Messages that were edited. -/
  delivered : Nat := 0
  /-- Messages that could not be edited. -/
  failed : Nat := 0
  /-- Trackings that were dropped because their message is gone. -/
  removed : Nat := 0
deriving DecidableEq

/-- Why a cycle stops before it stores what the messages show. -/
inductive CycleError
  | poll (e : PollError)
  | store (e : StoreError)
deriving DecidableEq

/-- The text shown for an error. -/
def CycleError.message : CycleError → String
  | poll e => e.message
  | store e => e.message

/-- How a cycle ends without a report. -/
inductive CycleStop
  /-- The cycle gives up, and the next one tries again. -/
  | error (e : CycleError)
  /-- A content cannot be formatted.  Nothing handles that, so there is no next cycle. -/
  | panic
deriving DecidableEq

namespace Cycle

open Procedure

/-- The report of a cycle that is about to announce changes. -/
def report (changes : List Change) : CycleReport where
  changedAddresses := Changes.addresses changes
  new := Changes.count changes .new
  changed := Changes.count changes .changed
  offline := Changes.count changes .offline

/-- The subscriptions to some messages.  For no messages the store is left alone. -/
def subscriptionsTo (refs : List MessageRef) : ExceptT StoreError Procedure (List Subscription) :=
  if refs.isEmpty then return [] else access (Store.listSubscriptions refs)

/-- Edit the message of a change, if the platform would take its new content. -/
def deliver (c : Change) : ExceptT CycleStop Procedure (Except ChatError Unit) :=
  match c.content with
  | none => throw .panic
  | some content =>
    match Message.check content with
    | .error e => return .error (.platform e.message)
    | .ok () => (ask (.edit c.ref content)).run

/-- Stop tracking a message that is gone.  Says whether it was tracked. -/
def dropMissing (r : MessageRef) : Procedure Bool := do
  match ← (access (Store.untrack r)).run with
  | .ok () => return true
  | .error _ => return false

/-- Announce one change. -/
def announce (report : CycleReport) (c : Change) : ExceptT CycleStop Procedure CycleReport := do
  match ← deliver c with
  | .ok () => return { report with delivered := report.delivered + 1 }
  | .error .notFound =>
    let removed := if ← dropMissing c.ref then report.removed + 1 else report.removed
    return { report with failed := report.failed + 1, removed := removed }
  | .error _ => return { report with failed := report.failed + 1 }

/-- Store what the messages of some changes show now.  Without changes the store is left alone.
Says whether it was written. -/
def commit (changes : List Change) : ExceptT StoreError Procedure Bool :=
  if changes.isEmpty then return false
  else do
    let (refs, entries) := Changes.replacement changes
    access (Store.replace refs entries)
    return true

/-- Announce changes, and store what the messages show then.  Without changes nothing is done. -/
def carryOut (changes : List Change) : ExceptT CycleStop Procedure CycleReport := do
  let report := report changes
  if changes.isEmpty then return report
  let subscriptions ← (subscriptionsTo (Changes.refs changes)).adapt fun e => .error (.store e)
  let changes := changes.map (Change.withMentions subscriptions)
  let report ← changes.foldlM announce report
  let _ ← (commit changes).adapt fun e => .error (.store e)
  return report

/-- One cycle. -/
def once : ExceptT CycleStop Procedure CycleReport := do
  let entries ← fetch.adapt fun e => .error (.poll e)
  let trackings ← (access Store.listTrackings).adapt fun e => .error (.store e)
  let announced ← (access Store.load).adapt fun e => .error (.store e)
  carryOut (announced.changes (MasterList.snapshot entries trackings))

/-- A cycle that gets the master list, the trackings and the announced snapshot carries out the
changes between them. -/
theorem once_run : once.run = .poll fun
    | .error e => .done (.error (.error (.poll e)))
    | .ok entries => .transact Store.listTrackings fun
      | .error e => .done (.error (.error (.store e)))
      | .ok trackings => .transact Store.load fun
        | .error e => .done (.error (.error (.store e)))
        | .ok announced =>
          (carryOut (announced.changes (MasterList.snapshot entries trackings))).run := by
  refine congrArg Procedure.poll (funext fun answer => ?_)
  cases answer with
  | error e => rfl
  | ok entries =>
    refine congrArg (Procedure.transact _) (funext fun listed => ?_)
    cases listed with
    | error e => rfl
    | ok trackings =>
      refine congrArg (Procedure.transact _) (funext fun loaded => ?_)
      cases loaded <;> rfl

/-- Without changes the store is left alone and nothing is said. -/
theorem carryOut_nil : (carryOut []).run = .done (.ok (report [])) := rfl

/-- Changes are announced with their mentions, and then stored unless a content could not be
formatted. -/
theorem carryOut_run {changes : List Change} (h : changes ≠ []) :
    (carryOut changes).run = .transact (Store.listSubscriptions (Changes.refs changes)) fun
      | .error e => .done (.error (.error (.store e)))
      | .ok subscriptions =>
        let mentioning := changes.map (Change.withMentions subscriptions)
        (mentioning.foldlM announce (report changes)).run >>= fun
          | .error stop => .done (.error stop)
          | .ok report =>
            .transact (Store.replace (Changes.refs mentioning) (Changes.current mentioning)) fun
              | .error e => .done (.error (.error (.store e)))
              | .ok () => .done (.ok report) := by
  obtain ⟨c, rest, rfl⟩ := List.exists_cons_of_ne_nil h
  refine congrArg (Procedure.transact _) (funext fun listed => ?_)
  cases listed with
  | error e => rfl
  | ok subscriptions =>
    refine (ExceptT.run_bind _ _).trans (congrArg (Procedure.bind _) (funext fun announced => ?_))
    cases announced with
    | error stop => rfl
    | ok report =>
      refine congrArg (Procedure.transact _) (funext fun replaced => ?_)
      cases replaced <;> rfl

/-- Some cycles, one after the other.  One that gives up does not stop the others; one that cannot
format a content does.  Says whether there is a next cycle. -/
def loop : Nat → Procedure Bool
  | 0 => return true
  | n + 1 => do
    match ← once.run with
    | .error .panic => return false
    | _ => loop n

end Cycle

end StatusBoard
