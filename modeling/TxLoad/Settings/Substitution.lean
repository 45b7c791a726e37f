/-! # Placeholders for variables of the environment

A placeholder is a name between `${` and a closing brace. A name consists of capital letters of
ASCII, digits and underscores and does not start with a digit. A text is read once from left to
right, and what is put in the place of a placeholder is not read again.
-/

namespace TxLoad.Settings

/-- The values of the variables that are set. -/
abbrev Environment := String → Option String

def isNameStart (c : Char) : Bool := c.isUpper || c = '_'

def isNameChar (c : Char) : Bool := isNameStart c || c.isDigit

/-- The name of the placeholder that a text begins with, and what follows the placeholder. -/
def placeholder? : List Char → Option (List Char × List Char)
  | '$' :: '\x7b' :: first :: rest =>
    if isNameStart first then
      match rest.dropWhile isNameChar with
      | '\x7d' :: after => some (first :: rest.takeWhile isNameChar, after)
      | _ => none
    else none
  | _ => none

theorem length_dropWhile_le {α : Type} (p : α → Bool) (l : List α) :
    (l.dropWhile p).length ≤ l.length := by
  induction l with
  | nil => exact Nat.le_refl _
  | cons a l ih =>
    simp only [List.dropWhile_cons, List.length_cons]
    split
    · omega
    · exact Nat.le_refl _

theorem placeholder?_length {text name after : List Char}
    (h : placeholder? text = some (name, after)) : after.length < text.length := by
  unfold placeholder? at h
  split at h
  · rename_i first rest
    split at h
    · split at h
      · rename_i tail hTail
        simp only [Option.some.injEq, Prod.mk.injEq] at h
        have hLe := length_dropWhile_le isNameChar rest
        rw [hTail, List.length_cons] at hLe
        obtain ⟨_, rfl⟩ := h
        simp only [List.length_cons]
        omega
      · cases h
    · cases h
  · cases h

/-- A character that stands for itself, or a placeholder. -/
inductive Segment
  | literal (c : Char)
  | placeholder (name : List Char)
  deriving DecidableEq, Repr

/-- The segments of a text. -/
def segments (text : List Char) : List Segment :=
  match _ : placeholder? text with
  | some (name, after) => .placeholder name :: segments after
  | none =>
    match text with
    | [] => []
    | c :: rest => .literal c :: segments rest
termination_by text.length
decreasing_by
  · exact placeholder?_length (by assumption)
  · simp only [List.length_cons]
    omega

def Segment.written : Segment → List Char
  | .literal c => [c]
  | .placeholder name => '$' :: '\x7b' :: name ++ ['\x7d']

/-- What a segment stands for. A variable that is not set stands for nothing. -/
def Segment.value (env : Environment) : Segment → List Char
  | .literal c => [c]
  | .placeholder name => ((env (String.ofList name)).getD "").toList

/-- The text with the values of the variables in the place of the placeholders. -/
def substitute (env : Environment) (text : String) : String :=
  String.ofList ((segments text.toList).flatMap (Segment.value env))

end TxLoad.Settings
