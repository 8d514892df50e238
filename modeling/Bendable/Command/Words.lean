import Bendable.Text.Digit

/-!
# Words of a command line

A command line is a list of words. Some are switches, which start with a dash and may take a word
of their own; the others fill the slots of the command line in order. After a word of two dashes
there are no switches. A switch may be shortened as long as it stays unambiguous, a word may be
joined to it by an equals sign, and switches of one letter may share a dash. A joined word of two
dashes is dropped, like one that fills a slot alone.

This is the grammar of `argparse` up to release 3.11.8. Later releases differ in two places: they
keep a joined word of two dashes, and they look at the letters that share a dash in another way.

The words are marked first, all of them; then they are followed from left to right.

## Main definitions

* `Switch`, `Slot`: what a command line may hold
* `mark`: what a word is
* `follow`: the steps that the marked words stand for
* `Trace`: the steps, the words left over, and the complaint that ended them
-/

namespace Bendable.Words

/-- A switch: its spellings, whether it takes a word, and what it means. -/
structure Switch (α : Type) where
  spellings : List String
  takesWord : Bool
  meaning : α

/-- A slot for words: one word, or a word and all that follow it. -/
inductive Slot where
  | one (name : String)
  | rest (name : String)

/-- The name of a slot. -/
def Slot.name : Slot → String
  | one name => name
  | rest name => name

/-- What is wrong with the words of a command line. -/
inductive Complaint where
  | ambiguous (word : String) (spellings : List String)
  | unusedText (spellings : List String) (text : String)
  | missingWord (spellings : List String)

/-- What a word is. -/
inductive Mark (α : Type) where
  | plain
  | separator
  | unknown
  | switch (s : Switch α) (long : Bool) (joined : Option (List Char))

/-- A word with its mark. -/
structure Marked (α : Type) where
  word : String
  mark : Mark α

/-! ## Marking -/

/-- The spellings of several switches, in order. -/
def table {α : Type} (switches : List (Switch α)) : List (String × Switch α) :=
  switches.flatMap fun s => s.spellings.map fun spelling => (spelling, s)

/-- Whether a text is a run of decimal digits of any script; a line end may follow. -/
def isDigitRun (text : List Char) : Bool :=
  let rest := text.dropWhile fun c => (Digit.value? c).isSome
  (rest = [] || rest = ['\n']) && text.head?.any fun c => (Digit.value? c).isSome

/-- Whether a word looks like a negative number: a dash and digits, perhaps with a point before
some of them. -/
def isNegativeNumber (text : List Char) : Bool :=
  match text with
  | '-' :: digits =>
    isDigitRun digits ||
      match digits.dropWhile fun c => (Digit.value? c).isSome with
      | '.' :: fraction => isDigitRun fraction
      | _ => false
  | _ => false

/-- What stands before the first equals sign of a text, and what stands after it if there is
one. -/
def splitEquals (text : List Char) : List Char × Option (List Char) :=
  match text.dropWhile (· ≠ '=') with
  | _ :: value => (text.takeWhile (· ≠ '='), some value)
  | [] => (text, none)

/-- Whether a spelling starts with two dashes. -/
def isLong (text : List Char) : Bool := ['-', '-'].isPrefixOf text

/-- The switches that a text may be short for, each with its spelling and the text joined to it.
A text with one dash may also be a switch of one letter with a text behind it. -/
def candidates {α : Type} (entries : List (String × Switch α)) (text : List Char) :
    List (String × Switch α × Option (List Char)) :=
  if isLong text then
    let (name, joined) := splitEquals text
    entries.filterMap fun (spelling, s) =>
      if name.isPrefixOf spelling.toList then some (spelling, s, joined) else none
  else
    entries.filterMap fun (spelling, s) =>
      if spelling.toList = text.take 2 then some (spelling, s, some (text.drop 2))
      else if text.isPrefixOf spelling.toList then some (spelling, s, none)
      else none

/-- The mark of a word that is not spelled like a switch: the only switch it may be short for;
otherwise it is a plain word if it is a negative number or has a space. -/
def markCandidate {α : Type} (entries : List (String × Switch α)) (word : String) :
    Except Complaint (Mark α) :=
  match candidates entries word.toList with
  | [(spelling, s, joined)] => .ok (.switch s (isLong spelling.toList) joined)
  | [] =>
    if isNegativeNumber word.toList || word.toList.contains ' ' then .ok .plain
    else .ok .unknown
  | several => .error (.ambiguous word (several.map fun (spelling, _) => spelling))

/-- The mark of a word. -/
def mark {α : Type} (entries : List (String × Switch α)) (word : String) :
    Except Complaint (Mark α) :=
  match word.toList with
  | '-' :: first :: rest =>
    match entries.lookup word with
    | some s => .ok (.switch s (first == '-') none)
    | none =>
      -- A whole spelling with a joined text goes before all that the word may be short for.
      let (name, joined) := splitEquals ('-' :: first :: rest)
      match joined, entries.lookup (String.ofList name) with
      | some joined, some s => .ok (.switch s (first == '-') (some joined))
      | _, _ => markCandidate entries word
  | _ => .ok .plain

/-- The words with their marks. After the first word of two dashes all words are plain. -/
def markAll {α : Type} (entries : List (String × Switch α)) :
    List String → Except Complaint (List (Marked α))
  | [] => .ok []
  | word :: rest =>
    if word = "--" then .ok (⟨word, .separator⟩ :: rest.map fun w => ⟨w, .plain⟩)
    else do
      let m ← mark entries word
      let ms ← markAll entries rest
      .ok (⟨word, m⟩ :: ms)

/-! ## Switches in one word -/

/-- The word of a switch or of a slot: a lone word of two dashes is dropped. -/
def ownWord (word : String) : Option String := if word = "--" then none else some word

/-- What one word of switches stands for: their meanings with the words joined to them, and a
switch that still waits for its word. -/
structure Unpacked (α : Type) where
  meanings : List (α × Option String)
  waiting : Option (Switch α)

/-- Puts a switch in front. -/
def Unpacked.cons {α : Type} (s : Switch α) (u : Unpacked α) : Unpacked α :=
  { u with meanings := (s.meaning, none) :: u.meanings }

/-- A switch without a joined text. -/
def Unpacked.alone {α : Type} (s : Switch α) : Unpacked α :=
  if s.takesWord then ⟨[], some s⟩ else ⟨[(s.meaning, none)], none⟩

/-- A switch that takes the text joined to it. -/
def Unpacked.joined {α : Type} (s : Switch α) (text : List Char) : Unpacked α :=
  ⟨[(s.meaning, ownWord (String.ofList text))], none⟩

/-- The complaint about a text joined to a switch that takes none. -/
def unused {α β : Type} (s : Switch α) (text : List Char) : Except Complaint β :=
  .error (.unusedText s.spellings (String.ofList text))

/-- Unpacks a text behind a switch of one letter that takes no word: each letter is a switch of its
own, until one takes the rest of the text. A letter that is no switch is a text without use, with
all that follows it, and then no switch of the word counts. -/
def unpackShort {α : Type} (entries : List (String × Switch α)) (s : Switch α) :
    List Char → Except Complaint (Unpacked α)
  | [] => unused s []
  | letter :: text =>
    match entries.lookup (String.ofList ['-', letter]) with
    | none => unused s (letter :: text)
    | some next =>
      -- The last letter may still wait for the next word.
      if text.isEmpty then .ok (.cons s (.alone next))
      else if next.takesWord then .ok (.cons s (.joined next text))
      else (unpackShort entries next text).map (.cons s)

/-- Unpacks a word that is a switch. -/
def unpack {α : Type} (entries : List (String × Switch α)) (s : Switch α) (long : Bool) :
    Option (List Char) → Except Complaint (Unpacked α)
  | none => .ok (.alone s)
  | some text =>
    if s.takesWord then .ok (.joined s text)
    else if long then unused s text
    else unpackShort entries s text

/-! ## Following -/

/-- A step of a command line: a switch, a slot with its word, or the slot of all further words. A
slot, or a switch that takes a word, has none if all it got is a word of two dashes. -/
inductive Step (α : Type) where
  | switch (meaning : α) (word : Option String)
  | slot (name : String) (word : Option String)
  | rest (words : List String)

/-- The steps of a command line. -/
structure Trace (α : Type) where
  steps : List (Step α)
  extras : List String
  unfilled : List Slot
  complaint : Option Complaint

namespace Trace

/-- A trace that ends with the given slots unfilled. -/
def done {α : Type} (slots : List Slot) : Trace α := ⟨[], [], slots, none⟩

/-- A trace that ends with a complaint. -/
def failed {α : Type} (c : Complaint) : Trace α := ⟨[], [], [], some c⟩

/-- Steps before those of a trace. -/
def before {α : Type} (steps : List (Step α)) (t : Trace α) : Trace α :=
  { t with steps := steps ++ t.steps }

/-- A word that is left over. -/
def extra {α : Type} (word : String) (t : Trace α) : Trace α :=
  { t with extras := word :: t.extras }

end Trace

/-- The steps of unpacked switches. -/
def switchSteps {α : Type} (meanings : List (α × Option String)) : List (Step α) :=
  meanings.map fun (meaning, word) => .switch meaning word

/-- Follows marked words from left to right. A separator belongs to the slot of the plain word
after it, or else before it. -/
def follow {α : Type} (entries : List (String × Switch α)) (slots : List Slot) :
    List (Marked α) → Trace α
  | [] => .done slots
  | item :: items =>
    match item.mark with
    | .unknown => (follow entries slots items).extra item.word
    | .separator =>
      match slots, items with
      -- All further words go together, the separator with them.
      | .rest _ :: slots, _ :: _ =>
        Trace.before [.rest (item.word :: items.map (·.word))] (.done slots)
      | .one name :: slots, next :: items =>
        (follow entries slots items).before [.slot name (some next.word)]
      | slots, items => (follow entries slots items).extra item.word
    | .plain =>
      match slots with
      | [] => (follow entries [] items).extra item.word
      | .rest _ :: slots =>
        Trace.before [.rest (item.word :: items.map (·.word))] (.done slots)
      | .one name :: slots =>
        match items with
        -- A separator behind the word fills no slot of its own.
        | ⟨_, .separator⟩ :: items =>
          (follow entries slots items).before [.slot name (ownWord item.word)]
        | items => (follow entries slots items).before [.slot name (ownWord item.word)]
    | .switch s long joined =>
      match unpack entries s long joined with
      | .error c => .failed c
      | .ok u =>
        match u.waiting with
        | none => (follow entries slots items).before (switchSteps u.meanings)
        | some waiting =>
          match items with
          -- Only a plain word can follow a switch as its own.
          | ⟨word, .plain⟩ :: items =>
            (follow entries slots items).before
              (switchSteps (u.meanings ++ [(waiting.meaning, some word)]))
          | _ => .failed (.missingWord waiting.spellings)

/-- Marks and follows the words of a command line. -/
def trace {α : Type} (switches : List (Switch α)) (slots : List Slot) (words : List String) :
    Trace α :=
  match markAll (table switches) words with
  | .error c => .failed c
  | .ok items => follow (table switches) slots items

end Bendable.Words
