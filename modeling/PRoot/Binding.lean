import PRoot.Paths

/-!
# Bindings

The binding lists of `path/binding.c`.  A name space carries three circular
lists of bindings: the ones the user asked for (`pending`), and the ones in
effect, once ordered by guest path and once by host path.  The elements of a
list are told apart by their address, as pointers are.
-/

namespace PRoot

/-- `Path`: a string and its recorded length. -/
structure Path where
  path : CStr
  length : Nat
  deriving DecidableEq, Repr

/-- `Binding`.  `addr` is the address it was allocated at. -/
structure Binding where
  addr : Nat
  host : Path
  guest : Path
  needSubstitution : Bool
  deriving DecidableEq, Repr

/-- `Side`. -/
inductive Side
  | pending | guest | host
  deriving DecidableEq, Repr

/-- The three lists of a name space. -/
structure Bindings where
  pending : List Binding
  guest : List Binding
  host : List Binding
  deriving DecidableEq, Repr

namespace Bindings

/-- `HEAD`. -/
def head (bindings : Bindings) : Side → List Binding
  | .pending => bindings.pending
  | .guest => bindings.guest
  | .host => bindings.host

/-- Rewrite one of the lists. -/
def modify (bindings : Bindings) (side : Side) (f : List Binding → List Binding) : Bindings :=
  match side with
  | .pending => { bindings with pending := f bindings.pending }
  | .guest => { bindings with guest := f bindings.guest }
  | .host => { bindings with host := f bindings.host }

end Bindings

/-- `CIRCLEQ_INSERT_AFTER`. -/
def insertAfter (previous binding : Binding) : List Binding → List Binding
  | [] => []
  | b :: bs => if b.addr = previous.addr then b :: binding :: bs
      else b :: insertAfter previous binding bs

/-- `CIRCLEQ_INSERT_BEFORE`. -/
def insertBefore (next binding : Binding) : List Binding → List Binding
  | [] => []
  | b :: bs => if b.addr = next.addr then binding :: b :: bs
      else b :: insertBefore next binding bs

/-- `CIRCLEQ_REMOVE`. -/
def unlink (binding : Binding) (l : List Binding) : List Binding :=
  l.filter (·.addr ≠ binding.addr)

/-- `get_root`, once the lists are in effect: the last binding is the root.
The source asserts that there is one. -/
def getRoot (bindings : Bindings) : CStr :=
  match bindings.guest.getLast? with
  | some binding => binding.host.path
  | none => []

/-- `belongs_to_guestfs`. -/
def belongsToGuestfs (bindings : Bindings) (hostPath : CStr) : Bool :=
  (comparePaths (getRoot bindings) hostPath).contains

/-- The path of a binding that a lookup on `side` compares. -/
def Binding.ref (binding : Binding) : Side → Path
  | .host => binding.host
  | _ => binding.guest

/-- The other path of a binding. -/
def Binding.reverseRef (binding : Binding) : Side → Path
  | .host => binding.guest
  | _ => binding.host

/-- `get_binding`.  On the host side a binding that holds a part of the root
is skipped for paths of the root. -/
def getBinding (bindings : Bindings) (side : Side) (path : CStr) : Option Binding :=
  (bindings.head side).find? fun binding =>
    let ref := binding.ref side
    (comparePaths2 ref.path ref.length path path.length).contains &&
      !(decide (side = .host) &&
        decide (comparePaths (getRoot bindings) slash ≠ .pathsAreEqual) &&
        belongsToGuestfs bindings path)

/-- `get_path_binding`. -/
def getPathBinding (bindings : Bindings) (side : Side) (path : CStr) : Option CStr :=
  (getBinding bindings side path).map fun binding => (binding.ref side).path

/-- `substitute_binding`: the path afterwards, and whether it was substituted.
What `substitute_path_prefix` returns is not looked at. -/
def substituteBinding (bindings : Bindings) (side : Side) (path : CStr) :
    CStr × Except Errno Bool :=
  match getBinding bindings side path with
  | none => (path, .error .ENOENT)
  | some binding =>
      if binding.needSubstitution = false then (path, .ok false)
      else
        let ref := binding.ref side
        let reverseRef := binding.reverseRef side
        ((substitutePathPrefix path ref.length reverseRef.path reverseRef.length).1, .ok true)

/-- `remove_binding_from_all_lists`. -/
def removeBindingFromAllLists (bindings : Bindings) (binding : Binding) : Bindings where
  pending := unlink binding bindings.pending
  guest := unlink binding bindings.guest
  host := unlink binding bindings.host

/-- Where the loop of `insort_binding` ends: at an iterator to be replaced, or
with what it has found for `previous` and `next`. -/
inductive Insort
  | replace (iterator : Binding)
  | insert (previous next : Option Binding)
  deriving DecidableEq, Repr

/-- The loop of `insort_binding` over the rest of a list. -/
def insortLoop (side : Side) (binding : Binding) :
    List Binding → Option Binding → Option Binding → Insort
  | [], previous, next => .insert previous next
  | iterator :: rest, previous, next =>
      match comparePaths2 (binding.ref side).path (binding.ref side).length
          (iterator.ref side).path (iterator.ref side).length with
      | .pathsAreEqual =>
          if side = .host then insortLoop side binding rest (some iterator) next
          else .replace iterator
      | .path1IsPrefix => insortLoop side binding rest (some iterator) next
      | .path2IsPrefix => insortLoop side binding rest previous (next.or (some iterator))
      | .pathsAreNotComparable => insortLoop side binding rest previous next

/-- `insort_binding`. -/
def insortBinding (bindings : Bindings) (side : Side) (binding : Binding) : Bindings :=
  let l := bindings.head side
  match insortLoop side binding l none l.head? with
  | .replace iterator =>
      removeBindingFromAllLists (bindings.modify side (insertAfter iterator binding)) iterator
  | .insert (some previous) _ => bindings.modify side (insertAfter previous binding)
  | .insert none (some next) => bindings.modify side (insertBefore next binding)
  | .insert none none => bindings.modify side (binding :: ·)

/-- The binding `insort_binding2` puts into the lists. -/
def Binding.settle (binding : Binding) : Binding :=
  { binding with
    needSubstitution := comparePaths binding.host.path binding.guest.path ≠ .pathsAreEqual }

/-- `insort_binding2`. -/
def insortBinding2 (bindings : Bindings) (binding : Binding) : Bindings :=
  insortBinding (insortBinding bindings .guest binding.settle) .host binding.settle

/-- A path with its length recorded. -/
def Path.ofCStr (p : CStr) : Path := ⟨p, p.length⟩

/-- `insort_binding3`, at the address `addr` of the new binding. -/
def insortBinding3 (bindings : Bindings) (addr : Nat) (hostPath guestPath : CStr) : Bindings :=
  insortBinding2 bindings ⟨addr, .ofCStr hostPath, .ofCStr guestPath, false⟩

end PRoot
