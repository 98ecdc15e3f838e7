import Lifecycle.Proofs.Alignment

namespace Lifecycle

namespace Attribute

-- The faults of a mark.
def faults (a : Attribute) : List HostFault :=
  faultsOf a.listedEvents

end Attribute

-- The faults of a method as a callback: those of its signature, of its marks and of its receiver.
def Method.faults (m : Method) : List HostFault :=
  m.signature.faults ++ m.marks.flatMap (·.faults) ++ faultsOf [m.signature.receiverKind]

namespace ImplItem

-- The faults of an item. Only a marked method can have some.
def faults : ImplItem → List HostFault
  | .method m => if m.marks = [] then [] else m.faults
  | .other _ => []

end ImplItem

namespace ImplBlock

-- A block with the same header and other items.
def withItems (b : ImplBlock) (items : List ImplItem) : ImplBlock :=
  { b with items }

@[simp] theorem subject_withItems (b : ImplBlock) (items : List ImplItem) :
    (b.withItems items).subject = b.subject :=
  rfl

-- The fault of the header, if it names no class.
def headerFaults (b : ImplBlock) : List HostFault :=
  faultsOf [b.subject]

theorem cleaned_extract (b : ImplBlock) :
    b.extract.cleaned = b.withItems (b.items.map (·.examine.cleaned)) := by
  have hitems : (b.items.map (·.examine)).map (·.cleaned) = b.items.map (·.examine.cleaned) :=
    List.map_map
  cases hsubject : b.subject with
  | ok subject => rw [extract_of_subject hsubject, hitems, withItems]
  | error fault => rw [extract_of_subject_fault hsubject, hitems, withItems]

end ImplBlock

end Lifecycle
