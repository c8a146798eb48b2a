/-!
# Cells

Computations on a state that is made of cells, in a language that does not
check which of them there are: a cell is read by `load` and written by `store`
and by nothing else, and both keep account of it, so `cells` is whatever a
computation has touched, in the order in which it did.
-/

namespace Cells

variable {ι σ α β ν : Type}

/-- What a computation returns, the state it leaves, and the cells it has
touched. -/
structure Outcome (ι σ α : Type) where
  result : α
  state : σ
  cells : List ι

/-- A computation on a state of type `σ` with cells named by `ι`. -/
def Access (ι σ α : Type) : Type := σ → Outcome ι σ α

namespace Access

instance : Monad (Access ι σ) where
  pure a := fun s => ⟨a, s, []⟩
  bind m f := fun s =>
    ⟨(f (m s).result (m s).state).result, (f (m s).result (m s).state).state,
      (m s).cells ++ (f (m s).result (m s).state).cells⟩

/-- Reading of the cell `i`. -/
def load (i : ι) (get : σ → ν) : Access ι σ ν := fun s => ⟨get s, s, [i]⟩

/-- A write to the cell `i`. -/
def store (i : ι) (set : σ → σ) : Access ι σ Unit := fun s => ⟨(), set s, [i]⟩

/-- Reading of what is not a cell. -/
def observe (get : σ → ν) : Access ι σ ν := fun s => ⟨get s, s, []⟩

/-- A change of what is not a cell. -/
def modify (f : σ → σ) : Access ι σ Unit := fun s => ⟨(), f s, []⟩

@[simp] theorem pure_run (a : α) (s : σ) : (pure a : Access ι σ α) s = ⟨a, s, []⟩ := rfl

/-- One computation after another. -/
@[simp] theorem bind_run (m : Access ι σ α) (f : α → Access ι σ β) (s : σ) :
    (m >>= f) s =
      ⟨(f (m s).result (m s).state).result, (f (m s).result (m s).state).state,
        (m s).cells ++ (f (m s).result (m s).state).cells⟩ := rfl

@[simp] theorem load_run (i : ι) (get : σ → ν) (s : σ) : load i get s = ⟨get s, s, [i]⟩ := rfl

@[simp] theorem store_run (i : ι) (set : σ → σ) (s : σ) : store i set s = ⟨(), set s, [i]⟩ := rfl

@[simp] theorem modify_run (f : σ → σ) (s : σ) : (modify f : Access ι σ Unit) s = ⟨(), f s, []⟩ := rfl

@[simp] theorem observe_run (get : σ → ν) (s : σ) : (observe get : Access ι σ ν) s = ⟨get s, s, []⟩ := rfl

/-- A branch is taken before anything is touched. -/
theorem ite_run (p : Prop) [Decidable p] (m n : Access ι σ α) (s : σ) :
    (if p then m else n) s = if p then m s else n s := apply_ite (fun c : Access ι σ α => c s) p m n

end Access

end Cells
