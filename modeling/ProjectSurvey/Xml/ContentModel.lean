import ProjectSurvey.Xml.Token

/-!
# Content models

The declaration of an element says what it may hold: nothing, anything, characters mixed with named
elements, or groups of elements. **Nothing of a content model is kept**, but a document is well
formed only if its content models are: the parts of one group are joined by one sign throughout, and
characters mixed with elements repeat.
-/

namespace ProjectSurvey.Xml

/-- Reads over the sign of repetition behind a part of a group, if there is one. -/
def skipRepetition (cs : List Char) : List Char :=
  match cs with
  | '?' :: rest | '*' :: rest | '+' :: rest => rest
  | _ => cs

/-- Reads over a group of elements up to its end. `joints` are the signs that join the parts of the
open groups, the innermost first and nothing before a second part; `isPart` says whether a part has
to come next. The fuel is the text. -/
def group? : (fuel cs : List Char) → (isPart : Bool) → (joints : List (Option Char)) →
    Option (List Char)
  | [], _, _, _ => none
  | _ :: fuel, cs, true, joints =>
    match skipSpace cs with
    | '(' :: rest => group? fuel rest true (none :: joints)
    | cs => do
      let (_, rest) ← declaredName? cs
      group? fuel (skipRepetition rest) false joints
  | _ :: fuel, cs, false, joint :: around =>
    match skipSpace cs with
    | ')' :: rest =>
      let rest := skipRepetition rest
      if around.isEmpty then some rest else group? fuel rest false around
    | c :: rest =>
      if (c = ',' ∨ c = '|') ∧ (joint.isNone ∨ joint = some c) then
        group? fuel rest true (some c :: around)
      else none
    | [] => none
  | _, _, false, [] => none

/-- Reads over the elements that are mixed with characters, up to the end of the group. The fuel is
the text. -/
def mixed? : (fuel cs : List Char) → Option (List Char)
  | [], _ => none
  | _ :: fuel, cs =>
    match skipSpace cs with
    | '|' :: rest => do
      let (_, rest) ← declaredName? (skipSpace rest)
      mixed? fuel rest
    | ')' :: '*' :: rest => some rest
    | _ => none

/-- Reads over a content model behind its opening bracket. -/
def bracketed? (cs : List Char) : Option (List Char) :=
  match Text.after? "#PCDATA".toList (skipSpace cs) with
  | some rest =>
    match skipSpace rest with
    | ')' :: '*' :: rest => some rest
    | ')' :: rest => some rest
    | rest => mixed? rest rest
  | none => group? cs cs true [none]

/-- Reads over a content model. -/
def contentModel? (cs : List Char) : Option (List Char) :=
  match cs with
  | '(' :: rest => bracketed? rest
  | _ => ["EMPTY", "ANY"].findSome? fun k => Text.after? k.toList cs

/-- Reads over the declaration of an element behind its keyword. -/
def elementDeclaration? (cs : List Char) : Option (List Char) := do
  let (_, rest) ← declaredName? (← space? cs)
  closing? (← contentModel? (← space? rest))

end ProjectSurvey.Xml
