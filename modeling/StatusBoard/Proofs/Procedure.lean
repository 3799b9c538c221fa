import StatusBoard.Procedure

/-!
# Invariants of procedures

Whatever the surroundings answer, a procedure does nothing but the steps it is made of.  So what
each of its transactions preserves, a whole run preserves (`Procedure.run_induction`).
-/

namespace StatusBoard.Procedure

variable {α β σ : Type} {P Q : (γ : Type) → Transaction γ → Prop}

/-- Every transaction that a procedure can come to satisfies a condition. -/
inductive Only (P : (γ : Type) → Transaction γ → Prop) : Procedure α → Prop
  | done (a : α) : Only P (done a)
  | transact {γ : Type} {t : Transaction γ} {next : Except StoreError γ → Procedure α} :
    P γ t → (∀ r, Only P (next r)) → Only P (transact t next)
  | call {c : ChatCall} {next : Except ChatError c.Reply → Procedure α} :
    (∀ r, Only P (next r)) → Only P (call c next)
  | poll {next : PollAnswer → Procedure α} : (∀ answer, Only P (next answer)) → Only P (poll next)

theorem Only.imp {p : Procedure α} (hp : p.Only P) (h : ∀ γ t, P γ t → Q γ t) : p.Only Q := by
  induction hp with
  | done a => exact .done a
  | transact ht _ ih => exact .transact (h _ _ ht) ih
  | call _ ih => exact .call ih
  | poll _ ih => exact .poll ih

theorem only_pure (a : α) : (pure a : Procedure α).Only P := .done a

theorem Only.bind {p : Procedure α} {f : α → Procedure β} (hp : p.Only P)
    (hf : ∀ a, (f a).Only P) : (p >>= f).Only P := by
  change (p.bind f).Only P
  induction hp with
  | done a => exact hf a
  | transact ht _ ih => exact .transact ht ih
  | call _ ih => exact .call ih
  | poll _ ih => exact .poll ih

theorem only_access {t : Transaction α} (ht : P α t) : (access t).run.Only P :=
  .transact ht .done

theorem only_ask (c : ChatCall) : (ask c).run.Only P := .call .done

/-! ### Procedures that may stop with an error -/

section Except

variable {ε ε' : Type}

theorem only_run_pure (a : α) : (pure a : ExceptT ε Procedure α).run.Only P := only_pure _

theorem only_run_throw (e : ε) : (throw e : ExceptT ε Procedure α).run.Only P := only_pure _

theorem Only.run_bind {p : ExceptT ε Procedure α} {f : α → ExceptT ε Procedure β}
    (hp : p.run.Only P) (hf : ∀ a, (f a).run.Only P) : (p >>= f).run.Only P := by
  rw [ExceptT.run_bind]
  apply hp.bind
  intro result
  cases result with
  | error e => exact only_pure _
  | ok a => exact hf a

theorem Only.run_lift {p : Procedure α} (hp : p.Only P) :
    (liftM p : ExceptT ε Procedure α).run.Only P :=
  hp.bind fun _ => only_pure _

theorem Only.run_adapt {p : ExceptT ε Procedure α} (hp : p.run.Only P) (f : ε → ε') :
    (p.adapt f).run.Only P :=
  hp.bind fun _ => only_pure _

end Except

/-- What the steps of a procedure preserve, its run preserves. -/
theorem run_induction {I : σ → Prop} {env : Surroundings σ}
    (htransact : ∀ γ (t : Transaction γ) s, P γ t → I s → I (env.transact t s).2)
    (hcall : ∀ c s, I s → I (env.call c s).2) (hpoll : ∀ s, I s → I (env.poll s).2)
    {p : Procedure α} (hp : p.Only P) {s : σ} (hs : I s) : I (p.run env s).2 := by
  induction hp generalizing s with
  | done a => exact hs
  | transact ht _ ih => exact ih _ (htransact _ _ s ht hs)
  | call _ ih => exact ih _ (hcall _ s hs)
  | poll _ ih => exact ih _ (hpoll s hs)

/-! ### One step at a time -/

/-- Carry out the next step of a procedure.  What is left of it comes first. -/
def step (env : Surroundings σ) : Procedure α → σ → Procedure α × σ
  | done a, s => (done a, s)
  | transact t next, s => let (r, s) := env.transact t s; (next r, s)
  | call c next, s => let (r, s) := env.call c s; (next r.inTime, s)
  | poll next, s => let (r, s) := env.poll s; (next r, s)

/-- A run is the next step and a run of what is left. -/
theorem run_step (env : Surroundings σ) (p : Procedure α) (s : σ) :
    (p.step env s).1.run env (p.step env s).2 = p.run env s := by
  cases p <;> rfl

theorem Only.step {p : Procedure α} (hp : p.Only P) (env : Surroundings σ) (s : σ) :
    (p.step env s).1.Only P := by
  cases hp with
  | done a => exact .done a
  | transact _ hnext => exact hnext _
  | call hnext => exact hnext _
  | poll hnext => exact hnext _

/-- What each step preserves of a procedure and its surroundings, the run preserves. -/
theorem run_steps {I : Procedure α → σ → Prop} {env : Surroundings σ}
    (hstep : ∀ p s, I p s → I (p.step env s).1 (p.step env s).2) {p : Procedure α} {s : σ}
    (h : I p s) : I (.done (p.run env s).1) (p.run env s).2 := by
  induction p generalizing s with
  | done a => exact h
  | transact t next ih => exact ih _ (hstep _ _ h)
  | call c next ih => exact ih _ (hstep _ _ h)
  | poll next ih => exact ih _ (hstep _ _ h)

/-! ### Procedures that only call -/

/-- The procedure does nothing but calls any more, and each of its results satisfies a condition. -/
inductive Ends (Q : α → Prop) : Procedure α → Prop
  | done {a : α} (h : Q a) : Ends Q (done a)
  | call {c : ChatCall} {next : Except ChatError c.Reply → Procedure α} (h : ∀ r, Ends Q (next r)) :
    Ends Q (call c next)

theorem Ends.bind {Q : α → Prop} {R : β → Prop} {p : Procedure α} {f : α → Procedure β}
    (hp : p.Ends Q) (hf : ∀ a, Q a → (f a).Ends R) : (p >>= f).Ends R := by
  change (p.bind f).Ends R
  induction hp with
  | done h => exact hf _ h
  | call _ ih => exact .call ih

/-! ### What is called -/

/-- Every call that a procedure can come to satisfies a condition. -/
inductive Calls (Q : ChatCall → Prop) : Procedure α → Prop
  | done (a : α) : Calls Q (done a)
  | transact {γ : Type} {t : Transaction γ} {next : Except StoreError γ → Procedure α}
    (h : ∀ r, Calls Q (next r)) : Calls Q (transact t next)
  | call {c : ChatCall} {next : Except ChatError c.Reply → Procedure α} (hc : Q c)
    (h : ∀ r, Calls Q (next r)) : Calls Q (call c next)
  | poll {next : PollAnswer → Procedure α} (h : ∀ answer, Calls Q (next answer)) :
    Calls Q (poll next)

theorem Calls.bind {Q : ChatCall → Prop} {p : Procedure α} {f : α → Procedure β} (hp : p.Calls Q)
    (hf : ∀ a, (f a).Calls Q) : (p >>= f).Calls Q := by
  change (p.bind f).Calls Q
  induction hp with
  | done a => exact hf a
  | transact _ ih => exact .transact ih
  | call hc _ ih => exact .call hc ih
  | poll _ ih => exact .poll ih

end StatusBoard.Procedure
