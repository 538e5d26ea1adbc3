import BuddySlab.Event
import Mathlib.Data.List.Infix

/-!
Printed lines read back. A number is printed in hexadecimal after its label, and no label begins
with a digit, so the text of a line tells which numbers were printed. Four kinds of lines tell of
blocks and slabs; no other line is taken for one of them.
-/

namespace BuddySlab

/-- What a printed line tells of blocks and slabs. -/
inductive Notice
  | granted (size address : Nat)
  | blockReleased (order address : Nat)
  | objectReleased (address : Nat)
  | slabCreated (page objectSize : Nat)
  deriving DecidableEq, Repr

/-- What an event tells of blocks and slabs, if it is of one of the four kinds. -/
def Event.notice? : Event → Option Notice
  | .granted size address => some (.granted size address)
  | .blockReleased order address => some (.blockReleased order address)
  | .objectReleased address => some (.objectReleased address)
  | .slabCreated page objectSize => some (.slabCreated page objectSize)
  | _ => none

namespace Notice

/-- The value of a digit; letters are lowercase. -/
def digit? (c : Char) : Option Nat :=
  if c.isDigit then some (c.toNat - '0'.toNat)
  else if 'a' ≤ c ∧ c ≤ 'f' then some (c.toNat - 'a'.toNat + 10)
  else none

/-- Reads on while there are digits. -/
def readDigits (n : Nat) : List Char → Nat × List Char
  | [] => (n, [])
  | c :: text =>
      match digit? c with
      | some d => readDigits (16 * n + d) text
      | none => (n, c :: text)

/-- Reads a number after its label. -/
def labelled? (label : String) (text : List Char) : Option (Nat × List Char) := do
  let text ← text.dropPrefix? label.toList
  let text ← text.dropPrefix? "0x".toList
  return readDigits 0 text

/-- Reads a text that is one number after a label. -/
def one? (label : String) (text : List Char) : Option Nat := do
  match ← labelled? label text with
  | (n, []) => return n
  | _ => none

/-- Reads a text that is two numbers, each after a label. -/
def two? (label label' : String) (text : List Char) : Option (Nat × Nat) := do
  let (n, text) ← labelled? label text
  let n' ← one? label' text
  return (n, n')

/-- Reads the text of a line. -/
def readText? (text : List Char) : Option Notice :=
  (two? "(PMM) alloc size=" " addr=" text).map (fun (size, address) => .granted size address) <|>
  (two? "(PMM) free ordem=" " addr=" text).map
    (fun (order, address) => .blockReleased order address) <|>
  (one? "(PMM) free slab obj=" text).map .objectReleased <|>
  (two? "(Slab) novo slab=" " obj_size=" text).map
    (fun (page, objectSize) => .slabCreated page objectSize)

/-- Reads a line of the trace. -/
def read? (line : String) : Option Notice :=
  (line.toList.dropPrefix? "TRACE ".toList).bind readText?

section Reading
variable {label label' : String} {text rest : List Char}

theorem dropPrefix?_append (front rest : List Char) :
    (front ++ rest).dropPrefix? front = some rest :=
  List.dropPrefix?_eq_some_iff.2 ⟨front, rfl, beq_self_eq_true _⟩

/-- Texts that part before either ends do not continue each other. -/
theorem dropPrefix?_of_apart {a b : List Char} (h : ¬a <+: b ∧ ¬b <+: a) (rest : List Char) :
    (b ++ rest).dropPrefix? a = none := by
  cases hdrop : (b ++ rest).dropPrefix? a with
  | none => rfl
  | some left =>
      obtain ⟨a', heq, hbeq⟩ := List.dropPrefix?_eq_some_iff.1 hdrop
      obtain rfl := eq_of_beq hbeq
      have hprefix : a' <+: b ++ rest := ⟨left, heq.symm⟩
      exact absurd (List.prefix_or_prefix_of_prefix hprefix (List.prefix_append b rest))
        (not_or.2 h)

theorem digit?_digitChar : ∀ d < 16, digit? d.digitChar = some d := by
  decide

/-- Reading goes on behind the digits of a number with that number. -/
theorem readDigits_toDigits (n : Nat) (rest : List Char) :
    readDigits 0 (Nat.toDigits 16 n ++ rest) = readDigits n rest := by
  induction n using Nat.strongRecOn generalizing rest with
  | ind n ih =>
      rw [Nat.toDigits_eq_if (by decide)]
      by_cases hlt : n < 16
      · rw [if_pos hlt, List.singleton_append, readDigits, digit?_digitChar n hlt]
        simp only [Nat.mul_zero, Nat.zero_add]
      · rw [if_neg hlt, List.append_assoc, List.singleton_append, ih (n / 16) (by omega),
          readDigits, digit?_digitChar _ (Nat.mod_lt n (by decide))]
        simp only [Nat.div_add_mod]

/-- The text does not go on with a digit. -/
def Ends (text : List Char) : Prop :=
  ∀ c ∈ text.head?, digit? c = none

theorem readDigits_of_ends (h : Ends text) (n : Nat) : readDigits n text = (n, text) := by
  cases text with
  | nil => rfl
  | cons c rest => rw [readDigits, h c rfl]

theorem ends_append (h : text.head? = some ' ') (rest : List Char) : Ends (text ++ rest) := by
  intro c hc
  rw [List.head?_append, h] at hc
  obtain rfl := Option.some.inj hc
  rfl

theorem toList_hex (n : Nat) : (hex n).toList = "0x".toList ++ Nat.toDigits 16 n := by
  rw [hex, String.toList_append]
  exact congrArg ("0x".toList ++ ·) String.toList_ofList

theorem labelled?_eq (n : Nat) (h : Ends rest) :
    labelled? label (label.toList ++ ((hex n).toList ++ rest)) = some (n, rest) := by
  rw [labelled?, dropPrefix?_append, Option.bind_eq_bind, Option.bind_some, toList_hex,
    List.append_assoc, dropPrefix?_append, Option.bind_some, readDigits_toDigits,
    readDigits_of_ends h]
  rfl

theorem one?_eq (n : Nat) : one? label (label.toList ++ (hex n).toList) = some n := by
  have hread : labelled? label (label.toList ++ ((hex n).toList ++ [])) = some (n, []) :=
    labelled?_eq n fun _ hc => by cases hc
  rw [List.append_nil] at hread
  rw [one?, hread]
  rfl

theorem two?_eq (n n' : Nat) (h : label'.toList.head? = some ' ') :
    two? label label' (label.toList ++ ((hex n).toList ++ (label'.toList ++ (hex n').toList))) =
      some (n, n') := by
  rw [two?, labelled?_eq n (ends_append h _), Option.bind_eq_bind, Option.bind_some]
  change (one? label' _ >>= _) = _
  rw [one?_eq]
  rfl

theorem toList_two (label label' : String) (n n' : Nat) :
    (label ++ hex n ++ label' ++ hex n').toList =
    label.toList ++ ((hex n).toList ++ (label'.toList ++ (hex n').toList)) := by
  simp only [String.toList_append, List.append_assoc]

section Apart
variable {a b : String} (h : ¬a.toList <+: b.toList ∧ ¬b.toList <+: a.toList)
include h

theorem one?_of_apart (rest : List Char) : one? a (b.toList ++ rest) = none := by
  rw [one?, labelled?, dropPrefix?_of_apart h]
  rfl

theorem two?_of_apart (label' : String) (rest : List Char) :
    two? a label' (b.toList ++ rest) = none := by
  rw [two?, labelled?, dropPrefix?_of_apart h]
  rfl

end Apart
end Reading

/-- Only lines of level trace are read. -/
theorem read?_of_level {e : Event} (h : e.level ≠ .trace) : read? e.line = none := by
  have happart : ∀ level : Level, level ≠ .trace →
      ¬"TRACE ".toList <+: (level.label ++ " ").toList ∧
        ¬(level.label ++ " ").toList <+: "TRACE ".toList := by
    intro level hlevel
    cases level with
    | trace => exact absurd rfl hlevel
    | _ => decide
  rw [read?, Event.line, String.toList_append, dropPrefix?_of_apart (happart _ h)]
  rfl

theorem read?_of_trace {e : Event} (h : e.level = .trace) :
    read? e.line = readText? e.text.toList := by
  have hline : e.line.toList = "TRACE ".toList ++ e.text.toList := by
    rw [Event.line, h, String.toList_append]
    rfl
  rw [read?, hline, dropPrefix?_append, Option.bind_some]

theorem readText?_granted (size address : Nat) :
    readText? (Event.granted size address).text.toList = some (.granted size address) := by
  have htext : (Event.granted size address).text.toList = "(PMM) alloc size=".toList ++
      ((hex size).toList ++ (" addr=".toList ++ (hex address).toList)) := toList_two _ _ _ _
  rw [htext, readText?, two?_eq size address (by decide)]
  rfl

theorem readText?_blockReleased (order address : Nat) :
    readText? (Event.blockReleased order address).text.toList =
      some (.blockReleased order address) := by
  have htext : (Event.blockReleased order address).text.toList = "(PMM) free ordem=".toList ++
      ((hex order).toList ++ (" addr=".toList ++ (hex address).toList)) := toList_two _ _ _ _
  rw [htext, readText?, two?_of_apart (by decide), two?_eq order address (by decide)]
  rfl

theorem readText?_objectReleased (address : Nat) :
    readText? (Event.objectReleased address).text.toList = some (.objectReleased address) := by
  have htext : (Event.objectReleased address).text.toList =
      "(PMM) free slab obj=".toList ++ (hex address).toList := String.toList_append
  rw [htext, readText?, two?_of_apart (by decide), two?_of_apart (by decide), one?_eq]
  rfl

theorem readText?_slabCreated (page objectSize : Nat) :
    readText? (Event.slabCreated page objectSize).text.toList =
      some (.slabCreated page objectSize) := by
  have htext : (Event.slabCreated page objectSize).text.toList = "(Slab) novo slab=".toList ++
      ((hex page).toList ++ (" obj_size=".toList ++ (hex objectSize).toList)) := toList_two _ _ _ _
  rw [htext, readText?, two?_of_apart (by decide), two?_of_apart (by decide),
    one?_of_apart (by decide), two?_eq page objectSize (by decide)]
  rfl

/-- What the texts that are read begin with. -/
def labels : List String :=
  ["(PMM) alloc size=", "(PMM) free ordem=", "(PMM) free slab obj=", "(Slab) novo slab="]

theorem readText?_of_apart {b : String} (h : ∀ label ∈ labels,
    ¬label.toList <+: b.toList ∧ ¬b.toList <+: label.toList) (rest : List Char) :
    readText? (b.toList ++ rest) = none := by
  rw [readText?, two?_of_apart (h _ (by decide)), two?_of_apart (h _ (by decide)),
    one?_of_apart (h _ (by decide)), two?_of_apart (h _ (by decide))]
  rfl

/-- A line reads as what its event tells, whatever the event. -/
theorem read?_line (e : Event) : read? e.line = e.notice? := by
  by_cases hlevel : e.level = .trace
  · rw [read?_of_trace hlevel]
    cases e with
    | granted size address => exact readText?_granted size address
    | blockReleased order address => exact readText?_blockReleased order address
    | objectReleased address => exact readText?_objectReleased address
    | slabCreated page objectSize => exact readText?_slabCreated page objectSize
    | orderListed order =>
        have htext : (Event.orderListed order).text.toList =
            "(Buddy) ordem=".toList ++ (hex order).toList := String.toList_append
        rw [htext]
        exact readText?_of_apart (by decide) _
    | blockListed start stop =>
        have htext : (Event.blockListed start stop).text.toList = "(Buddy)   bloco=".toList ++
            ((hex start).toList ++ (" fim=".toList ++ (hex stop).toList)) := toList_two _ _ _ _
        rw [htext]
        exact readText?_of_apart (by decide) _
    | orderCounted order blocks =>
        have htext : (Event.orderCounted order blocks).text.toList = "(PMM) ordem=".toList ++
            ((hex order).toList ++ (" livres=".toList ++ (hex blocks).toList)) := toList_two _ _ _ _
        rw [htext]
        exact readText?_of_apart (by decide) _
    | _ => cases hlevel
  · rw [read?_of_level hlevel]
    cases e with
    | granted | blockReleased | objectReleased | slabCreated => exact absurd rfl hlevel
    | _ => rfl

/-- The event whose line tells this. -/
def event : Notice → Event
  | .granted size address => .granted size address
  | .blockReleased order address => .blockReleased order address
  | .objectReleased address => .objectReleased address
  | .slabCreated page objectSize => .slabCreated page objectSize

theorem eq_event {e : Event} {n : Notice} (h : e.notice? = some n) : e = n.event := by
  cases e with
  | granted | blockReleased | objectReleased | slabCreated =>
      obtain rfl := Option.some.inj h
      rfl
  | _ => cases h

/-- The printed line of an event of the four kinds is the line of no other event. -/
theorem event_of_line {e e' : Event} (h : e.notice? ≠ none) (hline : e'.line = e.line) :
    e' = e := by
  obtain ⟨n, hn⟩ := Option.ne_none_iff_exists'.1 h
  have hn' : e'.notice? = some n := by rw [← read?_line, hline, read?_line, hn]
  rw [eq_event hn, eq_event hn']

end Notice
end BuddySlab
