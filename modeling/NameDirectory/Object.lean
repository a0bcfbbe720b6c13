import NameDirectory.Name
import NameDirectory.Text.Quoted
import NameDirectory.Text.Utf8

/-!
# Objects

The values that can be bound to a name.  A link stands for the name it holds.
-/

namespace NameDirectory

inductive Object where
  | null
  | bool (value : Bool)
  | integer (value : Int64)
  | text (value : String)
  | bytes (value : Bytes)
  | list (items : List Object)
  | link (target : Name)
  deriving Repr, Inhabited

namespace Object

/-- Class name of a binding that holds a context. -/
def contextClass : String := "context"

def className : Object → String
  | null => "null"
  | bool _ => "bool"
  | integer _ => "integer"
  | text _ => "text"
  | bytes _ => "bytes"
  | list _ => "list"
  | link _ => "link"

def asText? : Object → Option String
  | text s => some s
  | _ => none

mutual
/-- The printed form: text is quoted, bytes are only counted, a link starts with `@`. -/
def print : Object → String
  | null => "null"
  | bool b => toString b
  | integer i => toString i.toInt
  | text s => Text.quoted s
  | bytes b => "<" ++ toString b.length ++ " bytes>"
  | list items => "[" ++ ", ".intercalate (printAll items) ++ "]"
  | link n => "@" ++ n.text

def printAll : List Object → List String
  | [] => []
  | o :: os => o.print :: printAll os
end

mutual
/-- The kind of the value with its contents. -/
def describe : Object → String
  | null => "Null"
  | bool b => "Bool(" ++ toString b ++ ")"
  | integer i => "Integer(" ++ toString i.toInt ++ ")"
  | text s => "Text(" ++ Text.quoted s ++ ")"
  | bytes b => "Bytes([" ++ ", ".intercalate (b.map fun x => toString x.toNat) ++ "])"
  | list items => "List([" ++ ", ".intercalate (describeAll items) ++ "])"
  | link n => "Link(" ++ n.describe ++ ")"

def describeAll : List Object → List String
  | [] => []
  | o :: os => o.describe :: describeAll os
end

mutual
/-- The deepest nesting of lists: 0 without any list, 1 for a list of plain values. -/
def nesting : Object → Nat
  | list items => nestingAll items + 1
  | _ => 0

def nestingAll : List Object → Nat
  | [] => 0
  | o :: os => max o.nesting (nestingAll os)
end

/-! ## Equality -/

mutual
def beq : Object → Object → Bool
  | null, null => true
  | bool a, bool b => a == b
  | integer a, integer b => a == b
  | text a, text b => a == b
  | bytes a, bytes b => a == b
  | list a, list b => beqAll a b
  | link a, link b => a == b
  | _, _ => false

def beqAll : List Object → List Object → Bool
  | [], [] => true
  | a :: as, b :: bs => a.beq b && beqAll as bs
  | _, _ => false
end

mutual
theorem eq_of_beq : ∀ {a b : Object}, a.beq b = true → a = b
  | a, b, h => by
    cases a <;> cases b <;> simp_all [beq]
    exact eq_of_beqAll h

theorem eq_of_beqAll : ∀ {as bs : List Object}, beqAll as bs = true → as = bs
  | [], [], _ => rfl
  | a :: as, b :: bs, h => by
    simp only [beqAll, Bool.and_eq_true] at h
    rw [eq_of_beq h.1, eq_of_beqAll h.2]
  | [], _ :: _, h => by simp [beqAll] at h
  | _ :: _, [], h => by simp [beqAll] at h
end

mutual
theorem beq_self : ∀ a : Object, a.beq a = true
  | null => rfl
  | bool _ | integer _ | text _ | bytes _ | link _ => by simp [beq]
  | list items => beqAll_self items

theorem beqAll_self : ∀ as : List Object, beqAll as as = true
  | [] => rfl
  | a :: as => by simp [beqAll, beq_self a, beqAll_self as]
end

instance : DecidableEq Object := fun a b =>
  if h : a.beq b = true then .isTrue (eq_of_beq h)
  else .isFalse fun e => h (e ▸ beq_self a)

end Object

end NameDirectory
