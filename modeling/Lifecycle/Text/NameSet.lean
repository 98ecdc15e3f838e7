namespace Lifecycle.Text

-- Inserts a name into an ordered list, unless it is there.
def insertName (name : String) : List String → List String
  | [] => [name]
  | n :: rest =>
    if name < n then name :: n :: rest
    else if n < name then n :: insertName name rest
    else n :: rest

@[simp] theorem mem_insertName {name n : String} {names : List String} :
    n ∈ insertName name names ↔ n = name ∨ n ∈ names := by
  induction names with
  | nil => simp [insertName]
  | cons m rest ih =>
    unfold insertName
    split
    · simp
    · split
      · simp [ih, or_left_comm]
      · rename_i h₁ h₂
        have : m = name := String.le_antisymm (String.not_lt.1 h₁) (String.not_lt.1 h₂)
        subst this
        simp

theorem sorted_insertName {name : String} {names : List String}
    (h : names.Pairwise (· < ·)) : (insertName name names).Pairwise (· < ·) := by
  induction names with
  | nil => simp [insertName]
  | cons n rest ih =>
    obtain ⟨hn, hrest⟩ := List.pairwise_cons.1 h
    unfold insertName
    split
    · rename_i hlt
      refine List.pairwise_cons.2 ⟨fun m hm => ?_, h⟩
      rcases List.mem_cons.1 hm with rfl | hm
      · exact hlt
      · exact String.lt_trans hlt (hn m hm)
    · split
      · rename_i hlt
        refine List.pairwise_cons.2 ⟨fun m hm => ?_, ih hrest⟩
        rcases mem_insertName.1 hm with rfl | hm
        · exact hlt
        · exact hn m hm
      · exact h

-- A finite set of names.
structure NameSet where
  toList : List String
  sorted : toList.Pairwise (· < ·)
deriving DecidableEq

namespace NameSet

-- The set without names.
def empty : NameSet := ⟨[], .nil⟩

instance : Inhabited NameSet := ⟨empty⟩

instance : Membership String NameSet := ⟨fun s name => name ∈ s.toList⟩

instance (name : String) (s : NameSet) : Decidable (name ∈ s) :=
  inferInstanceAs (Decidable (name ∈ s.toList))

def insert (s : NameSet) (name : String) : NameSet :=
  ⟨insertName name s.toList, sorted_insertName s.sorted⟩

def ofList (names : List String) : NameSet :=
  names.foldl insert empty

@[simp] theorem not_mem_empty (name : String) : name ∉ empty :=
  List.not_mem_nil

@[simp] theorem mem_insert {s : NameSet} {name n : String} :
    n ∈ s.insert name ↔ n = name ∨ n ∈ s :=
  mem_insertName

theorem mem_foldl_insert {s : NameSet} {names : List String} {n : String} :
    n ∈ names.foldl insert s ↔ n ∈ names ∨ n ∈ s := by
  induction names generalizing s with
  | nil => simp
  | cons m rest ih => simp [ih, or_left_comm, or_assoc]

@[simp] theorem mem_ofList {names : List String} {n : String} : n ∈ ofList names ↔ n ∈ names := by
  simp [ofList, mem_foldl_insert]

end NameSet

end Lifecycle.Text
