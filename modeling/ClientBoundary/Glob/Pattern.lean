/-!
# Glob patterns

A pattern is a sequence of tokens. A question mark stands for one byte and a star for any number of
bytes, neither of them a slash; a double star that fills the space between slashes stands for
whole directories; a class stands for one byte; a group in braces stands for one of its branches.

- `Token`: the parts of a pattern;
- `Fault`: why a text is not a pattern, with the wording `Fault.message`;
- `parse`: the tokens of a text.
-/

namespace ClientBoundary
namespace Glob

inductive Token where
  | literal (c : Char)
  | any
  | many
  /-- A double star in front: any directories, or none. -/
  | leading
  /-- A double star at the end: everything below. -/
  | trailing
  /-- A double star between two slashes. -/
  | between
  | charClass (negated : Bool) (ranges : List (Char × Char))
  | alternates (branches : List (List Token))
  deriving Repr

inductive Fault where
  | unclosedClass
  | invalidRange (low high : Char)
  | unopenedGroup
  | unclosedGroup
  | danglingEscape
  deriving DecidableEq, Repr

/-- An opening brace and a closing one, as text. -/
def openBrace : String := "\x7b"

def closeBrace : String := "\x7d"

def Fault.message : Fault → String
  | .unclosedClass => "unclosed character class; missing ']'"
  | .invalidRange low high =>
      "invalid range; '" ++ String.ofList [low] ++ "' > '" ++ String.ofList [high] ++ "'"
  | .unopenedGroup =>
      "unopened alternate group; missing '" ++ openBrace ++ "' (maybe escape '" ++ closeBrace ++
        "' with '[" ++ closeBrace ++ "]'?)"
  | .unclosedGroup =>
      "unclosed alternate group; missing '" ++ closeBrace ++ "' (maybe escape '" ++ openBrace ++
        "' with '[" ++ openBrace ++ "]'?)"
  | .danglingEscape => "dangling '\\'"

/-! ## Building the token sequence -/

/-- An open group: the tokens of the branch around it and its finished branches, both latest
first. -/
structure Group where
  outer : List Token
  branches : List (List Token)

/-- The open groups, innermost first, and the tokens of the current branch, latest first. -/
structure Builder where
  groups : List Group
  current : List Token

namespace Builder

def empty : Builder := ⟨[], []⟩

def push (b : Builder) (t : Token) : Builder :=
  { b with current := t :: b.current }

def openGroup (b : Builder) : Builder :=
  ⟨⟨b.current, []⟩ :: b.groups, []⟩

/-- A comma ends a branch inside a group and is a literal outside. -/
def comma (b : Builder) : Builder :=
  match b.groups with
  | [] => b.push (.literal ',')
  | g :: outer => ⟨{ g with branches := b.current.reverse :: g.branches } :: outer, []⟩

def closeGroup (b : Builder) : Except Fault Builder :=
  match b.groups with
  | [] => .error .unopenedGroup
  | g :: outer =>
      let branches := (b.current.reverse :: g.branches).reverse
      .ok ⟨outer, .alternates branches :: g.outer⟩

def finish (b : Builder) : Except Fault (List Token) :=
  match b.groups with
  | [] => .ok b.current.reverse
  | _ :: _ => .error .unclosedGroup

/-- Put a directory star in place of the token before it, which is the slash; a directory star
that stands there already is kept. -/
def replaceSlash (b : Builder) (t : Token) : Builder :=
  match b.current with
  | .leading :: _ => b
  | .trailing :: _ => b
  | _ :: before => { b with current := t :: before }
  | [] => b.push t

end Builder

/-! ## Reading -/

/-- What is known of a class so far: its ranges, latest first, whether a character was read, and
whether a dash waits for its upper bound. -/
structure ClassState where
  negated : Bool
  ranges : List (Char × Char)
  first : Bool
  inRange : Bool

def ClassState.token (s : ClassState) : Token :=
  -- a dash without an upper bound stands for itself
  let ranges := if s.inRange then ('-', '-') :: s.ranges else s.ranges
  .charClass s.negated ranges.reverse

/-- Add a character to a class: as the upper bound of the last range, or on its own. -/
def ClassState.add (s : ClassState) (c : Char) : Except Fault ClassState :=
  match s.inRange, s.ranges with
  | true, (low, _) :: more =>
      if c < low then .error (.invalidRange low c)
      else .ok { s with ranges := (low, c) :: more, first := false, inRange := false }
  | _, _ => .ok { s with ranges := (c, c) :: s.ranges, first := false, inRange := false }

/-- Where the reader stands: outside classes, with the character before; after a backslash; at the
front of a class; or inside a class. -/
inductive Mode where
  | plain (previous : Option Char)
  | escape
  | classOpen
  | inClass (s : ClassState)

/-- Whether a double star here may stand for directories: after a slash, or right at the front of
a branch. -/
def starsMayFillSegment (b : Builder) (previous : Option Char) : Bool :=
  previous == some '/' ||
    (!b.groups.isEmpty && (previous == some ',' || previous == some '\x7b'))

/-- The tokens of a text, one character after the other. -/
def scan (b : Builder) : Mode → List Char → Except Fault (List Token)
  | .plain _, [] => b.finish
  | .escape, [] => .error .danglingEscape
  | .classOpen, [] => .error .unclosedClass
  | .inClass _, [] => .error .unclosedClass
  | .escape, c :: rest => scan (b.push (.literal c)) (.plain (some c)) rest
  | .classOpen, c :: rest =>
      if c = '!' ∨ c = '^' then scan b (.inClass ⟨true, [], true, false⟩) rest
      else
        match (ClassState.mk false [] true false).add c with
        | .error e => .error e
        | .ok s => scan b (.inClass s) rest
  | .inClass s, c :: rest =>
      -- a bracket at the front of a class is a character of it
      if c = ']' ∧ ¬ s.first then scan (b.push s.token) (.plain (some ']')) rest
      else if c = '-' ∧ ¬ s.first ∧ ¬ s.inRange then
        scan b (.inClass { s with inRange := true }) rest
      else
        match s.add c with
        | .error e => .error e
        | .ok s => scan b (.inClass s) rest
  | .plain previous, '*' :: '*' :: rest =>
      -- without slashes on both sides a double star is two stars
      let twoStars := (b.push .many).push .many
      if b.current.isEmpty then
        match rest with
        | [] => (b.push .leading).finish
        | c :: more =>
            if c = '/' then scan (b.push .leading) (.plain (some '/')) more
            else scan twoStars (.plain (some '*')) (c :: more)
      else if starsMayFillSegment b previous then
        match rest with
        | [] => (b.replaceSlash .trailing).finish
        | c :: more =>
            if !b.groups.isEmpty && (c = ',' || c = '\x7d') then
              scan (b.replaceSlash .trailing) (.plain (some '*')) (c :: more)
            else if c = '/' then scan (b.replaceSlash .between) (.plain (some '/')) more
            else scan twoStars (.plain (some '*')) (c :: more)
      else
        scan twoStars (.plain (some '*')) rest
  | .plain _, c :: rest =>
      let next := Mode.plain (some c)
      match c with
      | '?' => scan (b.push .any) next rest
      | '*' => scan (b.push .many) next rest
      | '[' => scan b .classOpen rest
      | '\\' => scan b .escape rest
      | ',' => scan b.comma next rest
      | '\x7b' => scan b.openGroup next rest
      | '\x7d' =>
          match b.closeGroup with
          | .error e => .error e
          | .ok b => scan b next rest
      | _ => scan (b.push (.literal c)) next rest

/-- The tokens of a pattern text. -/
def parse (pattern : List Char) : Except Fault (List Token) :=
  scan .empty (.plain none) pattern

end Glob
end ClientBoundary
