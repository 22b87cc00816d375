import Mathlib.Data.List.Basic

/-!
# Scope guards

A function changes a world `σ`, and `none` is the end of the program: an
exception may not leave the destructor of a guard. Registration nests closures,
the new function in front of the old chain, so that destruction runs the
functions last registered first.
-/

namespace SystemStats.ScopeGuards

variable {σ α : Type*}

/-- `std::function<void(void)>`; an empty or moved-from one is `none`. -/
abbrev Func (σ : Type*) := Option (σ → Option σ)

def call (func : Func σ) (w : σ) : Option σ := func.bind (fun run => run w)

structure ScopeGuard (σ : Type*) where
  func_ : Func σ

namespace ScopeGuard

def empty : ScopeGuard σ := ⟨some (fun w => some w)⟩

def ofFunc (func : Func σ) : ScopeGuard σ := ⟨func⟩

/-- `operator+=`. The old function is moved into the new closure. -/
def addAssign (guard : ScopeGuard σ) (anotherFunc : Func σ) : ScopeGuard σ :=
  let curFunc := guard.func_
  ⟨some (fun w => (call anotherFunc w).bind (call curFunc))⟩

def destroy (guard : ScopeGuard σ) (w : σ) : Option σ := call guard.func_ w

end ScopeGuard

def initial (f₀ : Option (Func σ)) : ScopeGuard σ := f₀.elim .empty .ofFunc

def registerAll (guard : ScopeGuard σ) (fs : List (Func σ)) : ScopeGuard σ :=
  fs.foldl ScopeGuard.addAssign guard

def runInOrder (fs : List (Func σ)) (w : σ) : Option σ := fs.foldlM (fun w f => call f w) w

def record (label : α) : Func (List α) := some (fun log => some (log ++ [label]))

theorem runInOrder_append (fs gs : List (Func σ)) (w : σ) :
    runInOrder (fs ++ gs) w = (runInOrder fs w).bind (runInOrder gs) := by
  rw [runInOrder, List.foldlM_append]
  rfl

theorem runInOrder_singleton (f : Func σ) (w : σ) : runInOrder [f] w = call f w := by
  simp [runInOrder]

theorem destroy_initial (f₀ : Option (Func σ)) (w : σ) :
    (initial f₀).destroy w = runInOrder f₀.toList w := by
  cases f₀ with
  | none => rfl
  | some f => exact (runInOrder_singleton f w).symm

theorem destroy_addAssign (guard : ScopeGuard σ) (f : Func σ) (w : σ) :
    (guard.addAssign f).destroy w = (call f w).bind guard.destroy := rfl

theorem destroy_registerAll (guard : ScopeGuard σ) (fs : List (Func σ)) (w : σ) :
    (registerAll guard fs).destroy w = (runInOrder fs.reverse w).bind guard.destroy := by
  induction fs generalizing guard with
  | nil => rfl
  | cons f fs ih =>
    have hstep : (guard.addAssign f).destroy = fun w => (runInOrder [f] w).bind guard.destroy := by
      funext w
      rw [destroy_addAssign, runInOrder_singleton]
    rw [registerAll, List.foldl_cons, ← registerAll, ih, hstep, List.reverse_cons,
      runInOrder_append, Option.bind_assoc]

theorem runInOrder_record (labels log : List α) :
    runInOrder (labels.map record) log = some (log ++ labels) := by
  induction labels generalizing log with
  | nil => simp [runInOrder]
  | cons label labels ih =>
    have hsplit : (label :: labels).map record = [record label] ++ labels.map record := rfl
    rw [hsplit, runInOrder_append, runInOrder_singleton, record, call, Option.bind_some,
      Option.bind_some, ih, List.append_assoc, List.singleton_append]

theorem destroy_eq_runInOrder (f₀ : Option (Func σ)) (fs : List (Func σ)) (w : σ) :
    (registerAll (initial f₀) fs).destroy w = runInOrder (fs.reverse ++ f₀.toList) w := by
  rw [destroy_registerAll, runInOrder_append]
  exact Option.bind_congr fun w _ => destroy_initial f₀ w

/-- Destruction runs the functions in the reverse order of their registration, the
initial one last; functions that log their labels show that each runs once. -/
theorem destroy_reversed :
    (∀ (f₀ : Option (Func σ)) (fs : List (Func σ)) (w : σ),
      (registerAll (initial f₀) fs).destroy w = runInOrder (fs.reverse ++ f₀.toList) w) ∧
    (∀ (first : Option α) (labels : List α),
      (registerAll (initial (first.map record)) (labels.map record)).destroy [] =
        some (labels.reverse ++ first.toList)) := by
  refine ⟨destroy_eq_runInOrder, fun first labels => ?_⟩
  have hmap : (labels.map record).reverse ++ (first.map record).toList =
      (labels.reverse ++ first.toList).map record := by
    rw [List.map_append, List.map_reverse]
    cases first <;> rfl
  rw [destroy_eq_runInOrder, hmap, runInOrder_record, List.nil_append]

end SystemStats.ScopeGuards
