/-!
# Control sequences

What a terminal would take for a command in a text, and what is left without it.  A sequence begins
with the escape character; what follows decides where it ends.  `ControlSequence.strip` leaves out
sequences and control characters, but keeps blanks, also those inside of a sequence.

* `Place.next`: how a sequence goes on.
* `State.step`: what one character does to the reading, and whether it is kept.
-/

namespace SchemaEnums.ControlSequence

/-- Where in a sequence the reading stands. -/
inductive Place where
  /-- Right behind the escape character. -/
  | escape
  /-- Behind an escape character with intermediate characters. -/
  | intermediate
  /-- In the parameters of a control sequence. -/
  | parameters
  /-- At the beginning of a device control string. -/
  | device
  /-- In the parameters of a device control string. -/
  | deviceParameters
  /-- Behind the parameters of a device control string. -/
  | deviceIntermediate
  /-- In the body of a device control string, or in a string that is no command. -/
  | body
  /-- In a command to the system. -/
  | command
deriving DecidableEq, Repr

/-- Where the reading of a text stands. -/
inductive State where
  /-- Outside of sequences. -/
  | text
  | inside (place : Place)
  /-- A blank has broken into a sequence.  What follows counts as text, up to the next control
  character, where the sequence goes on. -/
  | suspended (place : Place)
deriving DecidableEq, Repr

/-- Whether the code of a character lies between two bounds. -/
def within (low high : Nat) (c : Char) : Bool :=
  low ≤ c.toNat && c.toNat ≤ high

/-- Whether a control character only puts some space into a text. -/
def isBlank (c : Char) : Bool :=
  match c with
  | '\t' | '\n' | '\x0c' | '\r' => true
  | _ => false

/-- Whether a character outside of sequences is kept. -/
def isKept (c : Char) : Bool :=
  isBlank c || (0x20 ≤ c.toNat && c.toNat ≠ 0x7f)

/-- Whether the encoding of a character has the byte that ends a string. -/
def hasTerminator (c : Char) : Bool :=
  (String.utf8EncodeChar c).any (· == 0x9c)

/-- Whether blanks are looked at, in the middle of a sequence. -/
def Place.seesBlanks : Place → Bool
  | escape | intermediate | parameters => true
  | _ => false

/-- Where a character leads; one without a meaning is skipped. -/
def Place.next (place : Place) (c : Char) : State :=
  match place with
  | escape =>
    match c with
    | '[' => .inside parameters
    | ']' => .inside command
    | 'P' => .inside device
    | 'X' | '^' | '_' => .inside body
    | c =>
      if within 0x20 0x2f c then .inside intermediate
      else if within 0x30 0x7e c then .text
      else .inside escape
  | intermediate => if within 0x30 0x7e c then .text else .inside intermediate
  | parameters => if within 0x40 0x7e c then .text else .inside parameters
  | device =>
    if within 0x20 0x2f c then .inside deviceIntermediate
    else if within 0x30 0x3f c then .inside deviceParameters
    else if within 0x40 0x7e c then .inside body
    else .inside device
  | deviceParameters =>
    if within 0x20 0x2f c then .inside deviceIntermediate
    else if within 0x3c 0x7e c then .inside body
    else .inside deviceParameters
  | deviceIntermediate => if within 0x30 0x7e c then .inside body else .inside deviceIntermediate
  | body => if hasTerminator c then .text else .inside body
  | command => if c = '\x07' then .text else .inside command

/-- The state behind a character, and whether the character is kept. -/
def State.step (state : State) (c : Char) : State × Bool :=
  match c with
  | '\x1b' => (.inside .escape, false)
  | '\x18' | '\x1a' => (.text, false)
  | c =>
    match state with
    | .text => (.text, isKept c)
    | .inside place =>
      if place.seesBlanks && isBlank c then (.suspended place, true) else (place.next c, false)
    | .suspended place =>
      if 0x80 ≤ c.toNat then (.text, true)
      else if isKept c then (.suspended place, true)
      else (.inside place, false)

/-- What is kept of characters. -/
def stripFrom (state : State) : List Char → List Char
  | [] => []
  | c :: rest =>
    match state.step c with
    | (next, true) => c :: stripFrom next rest
    | (next, false) => stripFrom next rest

/-- A text without its control sequences. -/
def strip (text : String) : String :=
  .ofList (stripFrom .text text.toList)

end SchemaEnums.ControlSequence
