import Mathlib.Init

/-!
# Programs with a state and exceptions

A program that raises an exception leaves the state it had reached.  `Ends`
says what holds where a run ends, in the order in which the program does its
steps, so a program is taken apart by one rule for each of them.
-/

namespace Effect

variable {σ ε α β : Type}

abbrev Program (σ ε α : Type) : Type :=
  ExceptT ε (StateM σ) α

/-- The result and the state it is reached with. -/
def run (program : Program σ ε α) (state : σ) : Except ε α × σ :=
  (ExceptT.run program).run state

/-- `returned` holds where the run returns, `raised` where it raises. -/
def Ends (program : Program σ ε α) (state : σ) (returned : α → σ → Prop)
    (raised : ε → σ → Prop) : Prop :=
  match run program state with
  | (.ok value, final) => returned value final
  | (.error exception, final) => raised exception final

def act (step : σ → α × σ) : Program σ ε α :=
  ExceptT.lift (fun state => step state)

def check (result : Except ε α) : Program σ ε α :=
  ExceptT.mk (pure result)

variable {state : σ} {returned : α → σ → Prop} {raised : ε → σ → Prop}

@[simp] theorem ends_pure {value : α} :
    Ends (pure value : Program σ ε α) state returned raised ↔
      returned value state :=
  Iff.rfl

@[simp] theorem ends_act {step : σ → α × σ} :
    Ends (act step : Program σ ε α) state returned raised ↔
      returned (step state).1 (step state).2 :=
  Iff.rfl

@[simp] theorem ends_check_ok {value : α} :
    Ends (check (.ok value) : Program σ ε α) state returned raised ↔
      returned value state :=
  Iff.rfl

@[simp] theorem ends_check_error {exception : ε} :
    Ends (check (.error exception) : Program σ ε α) state returned raised ↔
      raised exception state :=
  Iff.rfl

@[simp] theorem ends_bind {program : Program σ ε α}
    {next : α → Program σ ε β} {returned : β → σ → Prop} :
    Ends (program >>= next) state returned raised ↔
      Ends program state
        (fun value final => Ends (next value) final returned raised)
        raised := by
  unfold Ends run
  rw [ExceptT.run_bind, StateT.run_bind]
  cases (ExceptT.run program).run state with
  | mk result final =>
      cases result with
      | ok value => exact Iff.rfl
      | error exception => exact Iff.rfl

theorem Ends.mono {program : Program σ ε α}
    {returned' : α → σ → Prop} {raised' : ε → σ → Prop}
    (ends : Ends program state returned raised)
    (return_mono : ∀ value final,
      returned value final → returned' value final)
    (raise_mono : ∀ exception final,
      raised exception final → raised' exception final) :
    Ends program state returned' raised' := by
  unfold Ends at ends ⊢
  split at ends
  · exact return_mono _ _ ends
  · exact raise_mono _ _ ends

theorem Ends.final {program : Program σ ε α} {holds : σ → Prop}
    (ends : Ends program state (fun _ => holds) fun _ => holds) :
    holds (run program state).2 := by
  unfold Ends at ends
  split at ends
  · rename_i ended
    rw [ended]
    exact ends
  · rename_i ended
    rw [ended]
    exact ends

theorem Ends.absurd {program : Program σ ε α}
    (raises : Ends program state (fun _ _ => False) raised)
    (returns : Ends program state returned fun _ _ => False) : False := by
  unfold Ends at raises returns
  split at raises
  · exact raises
  · rename_i ended
    rw [ended] at returns
    exact returns

end Effect
