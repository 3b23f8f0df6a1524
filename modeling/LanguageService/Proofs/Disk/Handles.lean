import LanguageService.Disk.Basic

/-! Opening a file, and what is done with handles. An open fails in the same way on every disk where the
path has a null byte in it, and each open that succeeds gives a handle that there was not before. -/
namespace LanguageService

theorem bindFails {ε α β : Type} {x : Except ε α} {f : α → Except ε β} {fault : ε} :
    (x >>= f) = .error fault ↔ x = .error fault ∨ ∃ a, x = .ok a ∧ f a = .error fault := by
  cases x <;> simp [bind, Except.bind]

theorem bindGives {ε α β : Type} {x : Except ε α} {f : α → Except ε β} {b : β} :
    (x >>= f) = .ok b ↔ ∃ a, x = .ok a ∧ f a = .ok b := by
  cases x <;> simp [bind, Except.bind]

namespace Disk

theorem walkFails {d : Disk} {path : String} {place : Place} {segments : List String} {fault : Fault}
    (failed : d.walk path place segments = .error fault) :
    fault ∈ [.missing path, .notFolder path, .nameTooLong path] := by
  fun_induction d.walk path place segments with
  | case1 => cases failed
  | case2 => cases failed; simp
  | case3 => cases failed; simp
  | case4 names segment rest step ih => exact ih failed
  | case5 => cases failed; simp
  | case6 names segment rest step short inner bytes found ih => exact ih failed
  | case7 names segment rest step short inner found folder ih => exact ih failed
  | case8 names segment rest step short inner found folder ih => exact ih failed

theorem resolveFails {d : Disk} {path : String} {segments : List String} {fault : Fault}
    (failed : d.resolve path segments = .error fault) :
    fault = .nullByte ∧ '\x00' ∈ path.toList ∨ fault ∈ [.missing path, .notFolder path, .nameTooLong path] := by
  unfold resolve at failed
  split at failed
  · rename_i null
    cases failed
    exact .inl ⟨rfl, by simpa using null⟩
  split at failed
  · cases failed
    simp
  split at failed
  · cases failed
    simp
  · exact .inr (walkFails failed)

theorem resolveNull {d : Disk} {path : String} {segments : List String} :
    d.resolve path segments = .error .nullByte ↔ '\x00' ∈ path.toList := by
  constructor
  · intro failed
    rcases resolveFails failed with ⟨_, null⟩ | listed
    · exact null
    · simp at listed
  · intro null
    unfold resolve
    rw [if_pos (by simpa using null)]

theorem openNull {d : Disk} {path : String} {clear : Bool} :
    d.openFile path clear = .error .nullByte ↔ '\x00' ∈ path.toList := by
  unfold openFile
  split
  · rw [bindFails, resolveNull]
    refine ⟨?_, Or.inl⟩
    rintro (null | ⟨place, _, failed⟩)
    · exact null
    · cases place <;> cases failed
  · rw [bindFails, place, resolveNull]
    refine ⟨?_, Or.inl⟩
    rintro (null | ⟨place, _, failed⟩)
    · exact null
    · cases place <;> cases failed

theorem openHeld {d disk : Disk} {path : String} {clear : Bool} {handle : Handle}
    (opened : d.openFile path clear = .ok (disk, handle)) :
    ∃ names bytes, d.hold path names bytes = (disk, handle) := by
  unfold openFile at opened
  split at opened
  · obtain ⟨place, _, opened⟩ := bindGives.mp opened
    cases place <;> cases opened
  · obtain ⟨place, _, opened⟩ := bindGives.mp opened
    cases place with
    | folder names => cases opened
    | vacant names => exact ⟨names, _, Except.ok.inj opened⟩
    | file names bytes => exact ⟨names, _, Except.ok.inj opened⟩

/- A handle that is new, and one deed more. -/
structure Opens (d : Disk) (path : String) (disk : Disk) (handle : Handle) : Prop where
  number : handle.number = d.nextHandle
  next : disk.nextHandle = d.nextHandle + 1
  deeds : disk.deeds = d.deeds ++ [.opened path handle]

theorem openOpens {d disk : Disk} {path : String} {clear : Bool} {handle : Handle}
    (opened : d.openFile path clear = .ok (disk, handle)) : Opens d path disk handle := by
  obtain ⟨names, bytes, held⟩ := openHeld opened
  cases held
  exact ⟨rfl, rfl, rfl⟩

def Deed.opened? : Deed → Option Handle
  | .opened _ handle => some handle
  | _ => none

def Deed.closed? : Deed → Option Handle
  | .closed handle => some handle
  | _ => none

def Deed.text? (handle : Handle) : Deed → Option String
  | .wrote other text => if other = handle then some text else none
  | _ => none

/- The handles that were opened and those that were closed, in order, and what was written through one. -/
def opens (deeds : List Deed) : List Handle := deeds.filterMap Deed.opened?

def closes (deeds : List Deed) : List Handle := deeds.filterMap Deed.closed?

def written (handle : Handle) (deeds : List Deed) : List String := deeds.filterMap (Deed.text? handle)

theorem opensAppend (first second : List Deed) : opens (first ++ second) = opens first ++ opens second :=
  List.filterMap_append

theorem closesAppend (first second : List Deed) : closes (first ++ second) = closes first ++ closes second :=
  List.filterMap_append

theorem writtenAppend (handle : Handle) (first second : List Deed) :
    written handle (first ++ second) = written handle first ++ written handle second :=
  List.filterMap_append

@[simp] theorem opensOpened (deeds : List Deed) (path : String) (handle : Handle) :
    opens (deeds ++ [.opened path handle]) = opens deeds ++ [handle] := opensAppend _ _

@[simp] theorem opensClosed (deeds : List Deed) (handle : Handle) : opens (deeds ++ [.closed handle]) = opens deeds :=
  (opensAppend _ _).trans (List.append_nil _)

@[simp] theorem closesOpened (deeds : List Deed) (path : String) (handle : Handle) :
    closes (deeds ++ [.opened path handle]) = closes deeds := (closesAppend _ _).trans (List.append_nil _)

@[simp] theorem closesClosed (deeds : List Deed) (handle : Handle) :
    closes (deeds ++ [.closed handle]) = closes deeds ++ [handle] := closesAppend _ _

end Disk
end LanguageService
