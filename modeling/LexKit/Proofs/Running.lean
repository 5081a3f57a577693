import LexKit.Memory.Allocator

/-!
# Running actions

An action on a state, run on one state, gives a result or a fault together with the state
afterwards. These equations run composed actions part by part.
-/

set_option autoImplicit false

namespace LexKit.Running

variable {Fault State α β : Type}

theorem run_bind (action : EStateM Fault State α) (next : α → EStateM Fault State β)
    (state : State) :
    (action >>= next) state =
      match action state with
      | .ok result after => next result after
      | .error fault after => .error fault after :=
  rfl

theorem run_pure (result : α) (state : State) :
    (pure result : EStateM Fault State α) state = .ok result state :=
  rfl

theorem run_throw (fault : Fault) (state : State) :
    (throw fault : EStateM Fault State α) state = .error fault state :=
  rfl

theorem run_get (state : State) :
    (get : EStateM Fault State State) state = .ok state state :=
  rfl

theorem run_modify (change : State → State) (state : State) :
    (modify change : EStateM Fault State Unit) state = .ok () (change state) :=
  rfl

theorem run_ite (condition : Prop) [Decidable condition] (yes no : EStateM Fault State α)
    (state : State) :
    (if condition then yes else no) state = if condition then yes state else no state := by
  split <;> rfl

theorem run_tryCatch (action : EStateM Fault State α) (handler : Fault → EStateM Fault State α)
    (state : State) :
    (tryCatch action handler : EStateM Fault State α) state =
      match action state with
      | .ok result after => .ok result after
      | .error fault after => handler fault after := by
  change EStateM.tryCatch action handler state = _
  delta EStateM.tryCatch
  dsimp only
  cases action state with
  | ok result after => rfl
  | error fault after => rfl

theorem run_ofExcept_ok (result : α) (state : State) :
    (MonadExcept.ofExcept (.ok result : Except Fault α) : EStateM Fault State α) state =
      .ok result state :=
  rfl

theorem run_ofExcept_error (fault : Fault) (state : State) :
    (MonadExcept.ofExcept (.error fault : Except Fault α) : EStateM Fault State α) state =
      .error fault state :=
  rfl

def answer (found : Except Fault α) (state : State) : EStateM.Result Fault State α :=
  match found with
  | .ok result => .ok result state
  | .error fault => .error fault state

theorem bind_eq_ok {action : EStateM Fault State α} {next : α → EStateM Fault State β}
    {state after : State} {result : β} (ran : (action >>= next) state = .ok result after) :
    ∃ value between, action state = .ok value between ∧ next value between = .ok result after := by
  rw [run_bind] at ran
  split at ran
  · rename_i value between first
    exact ⟨value, between, first, ran⟩
  · cases ran

end LexKit.Running
