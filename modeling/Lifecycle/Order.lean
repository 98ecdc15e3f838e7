import Lifecycle.Declaration

namespace Lifecycle

instance : Ord Event := ⟨fun a b => compare a.rank b.rank⟩

instance : Ord ClassPath :=
  ⟨fun a b => (compare a.modules b.modules).then (compare a.name b.name)⟩

instance : Ord Location :=
  ⟨fun a b => (compare a.file b.file).then
    ((compare a.line b.line).then (compare a.column b.column))⟩

instance : Ord CallbackId := ⟨fun a b => compare a.number b.number⟩

-- Sorts a list; equal items keep their order.
def sorted {α : Type} [Ord α] (items : List α) : List α :=
  items.mergeSort fun a b => (compare a b).isLE

end Lifecycle
