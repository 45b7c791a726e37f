import TxLoad.Telemetry.Notice
import TxLoad.Text.Numeral

/-! # Which notices a log shows

A filter is a list of directives, with commas between them. A directive sets a level for the parts
of the program whose names begin in a given way, or for all parts. Of the directives that concern a
part the one with the longest beginning counts, and of two with the same beginning the later one.
-/

namespace TxLoad.Telemetry

structure Directive where
  /-- The beginning of the names that are meant; empty for all. -/
  target : String
  /-- The last level that is let through, if any is. -/
  level : Option Level
  deriving DecidableEq, Repr

abbrev Filter := List Directive

namespace Directive

def levelNames : List (String × Option Level) :=
  [("off", none), ("error", some .error), ("warn", some .warn), ("info", some .info),
    ("debug", some .debug), ("trace", some .trace)]

/-- A level is given by its name, in letters of any case, or by its rank. -/
def level? (text : String) : Option (Option Level) :=
  match Text.digitsValue? text.toList with
  | some rank => (levelNames.map Prod.snd)[rank]?
  | none => levelNames.lookup (String.ofList (text.toList.map Char.toLower))

def isTargetChar (c : Char) : Bool := c.isAlphanum || c = '_' || c = ':' || c = '-'

/-- A directive is a level, a beginning of names, or both with an equals sign between them. A
missing level lets everything through. -/
def read? (text : String) : Option Directive :=
  let target := text.toList.takeWhile isTargetChar
  match target, text.toList.dropWhile isTargetChar with
  | [], _ => none
  | _, [] =>
    match level? text with
    | some level => some ⟨"", level⟩
    | none => some ⟨text, some .trace⟩
  | _, ['='] => some ⟨String.ofList target, some .trace⟩
  | _, '=' :: level => (level? (String.ofList level)).map (⟨String.ofList target, ·⟩)
  | _, _ => none

def concerns (d : Directive) (part : String) : Bool := d.target.toList.isPrefixOf part.toList

end Directive

namespace Filter

/-- Without directives only errors are shown. -/
def errorsOnly : Filter := [⟨"", some .error⟩]

/-- What is shown if nothing else is asked for. -/
def standard : Filter :=
  [⟨"", some .info⟩, ⟨"tx_spammer", some .debug⟩]

def read? (text : String) : Option Filter :=
  match (text.splitOn ",").filter (!·.isEmpty) with
  | [] => some errorsOnly
  | directives => directives.mapM Directive.read?

/-- The filter of a variable that may hold none, or not a readable one. -/
def ofVariable (value : Option String) : Filter := (value.bind read?).getD standard

/-- Of two directives the one that counts; the second is the later one. -/
def stronger (chosen : Option Directive) (d : Directive) : Option Directive :=
  match chosen with
  | none => some d
  | some c => if c.target.length ≤ d.target.length then some d else some c

/-- The directive that counts for a part of the program. -/
def directive? (f : Filter) (part : String) : Option Directive :=
  (f.filter (·.concerns part)).foldl stronger none

def shows (f : Filter) (n : Notice) : Bool :=
  match (directive? f n.target).bind Directive.level with
  | none => false
  | some level => n.level.rank ≤ level.rank

end Filter

end TxLoad.Telemetry
