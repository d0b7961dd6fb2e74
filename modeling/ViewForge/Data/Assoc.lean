namespace ViewForge.Assoc

variable {α β : Type} [DecidableEq α]

def set (key : α) (value : β) : List (α × β) → List (α × β)
  | [] => [(key, value)]
  | (k, v) :: r => if k = key then (k, value) :: r else (k, v) :: set key value r

def get? (key : α) : List (α × β) → Option β
  | [] => none
  | (k, v) :: r => if k = key then some v else get? key r

def erase (key : α) : List (α × β) → List (α × β)
  | [] => []
  | (k, v) :: r => if k = key then erase key r else (k, v) :: erase key r

def ofList (pairs : List (α × β)) : List (α × β) :=
  pairs.foldl (fun acc (k, v) ↦ set k v acc) []

@[simp]
theorem get?_set_self (key : α) (value : β) (l : List (α × β)) :
    get? key (set key value l) = some value := by
  induction l with
  | nil => simp [set, get?]
  | cons p r ih => by_cases h : p.1 = key <;> simp [set, get?, h, ih]

@[simp]
theorem get?_set_of_ne {key other : α} (h : other ≠ key) (value : β) (l : List (α × β)) :
    get? other (set key value l) = get? other l := by
  induction l with
  | nil => simp [set, get?, h.symm]
  | cons p r ih =>
    by_cases hk : p.1 = key
    · have : ¬p.1 = other := fun ho ↦ h (ho.symm.trans hk)
      simp [set, get?, hk, h.symm]
    · simp [set, get?, hk, ih]

end ViewForge.Assoc
