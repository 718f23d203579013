import Mathlib
import HomCircuit.Proofs.Decimal.Literal
import HomCircuit.Json.Reader
import HomCircuit.Json.Printer

/-!
# HomCircuit.Proofs.Json.Reader

A document that is written over several lines is read back.

```
parse? (render j) = some j      strings of any characters, numbers as literals, any nesting
```

What stands behind a value in a written document is a comma, a line break or nothing. Neither continues
a number, and blanks in front of a value are skipped, so each value is read up to where it was written.

* `Json.Writable` — a document whose strings are whole and whose numbers are literals of the right form;
* `readString_quoted`, `readNumber_text` — strings and numbers are read back, and what follows is left;
* `Writable.reads` — so is every document, with no more fuel than it has characters;
* `Writable.parse?_render` — and a whole text.
-/

namespace HomCircuit.Json

open Decimal (Literal Digits digitChar)

variable {cs rest : List Char}

/-! ## strings -/

/-- The piece that a written character is read as: control characters without a letter of their own are
named by number. -/
def pieceOf (c : Char) : Piece :=
  if c.toNat < 0x20 ∧ c ∉ ['\x08', '\x0c', '\n', '\r', '\t'] then .unit c.toNat else .char c

theorem hexUnit?_hexByte {n : Nat} (h : n < 0x20) (rest : List Char) :
    hexUnit? ('0' :: '0' :: (hexByte n ++ rest)) = some (n, rest) := by
  interval_cases n <;> rfl

/-- A character that needs no escape stands for itself. -/
theorem readPieces_char {c : Char} (quote : c ≠ '"') (backslash : c ≠ '\\')
    (printable : ¬ c.toNat < 0x20) (fuel : Nat) (acc : List Piece) (rest : List Char) :
    readPieces (fuel + 1) acc (c :: rest) = readPieces fuel (.char c :: acc) rest := by
  rw [readPieces.eq_def]
  simp only
  split
  · contradiction
  · next same => exact absurd (List.cons.inj same).1 quote
  · next same => exact absurd (List.cons.inj same).1 backslash
  · next same => exact absurd (List.cons.inj same).1 backslash
  · next same =>
    cases same
    rw [if_neg (not_or.mpr ⟨printable, backslash⟩)]

/-- One character of a string is read as one piece. -/
theorem readPieces_escapeChar (fuel : Nat) (acc : List Piece) (c : Char) (rest : List Char) :
    readPieces (fuel + 1) acc (escapeChar c ++ rest) = readPieces fuel (pieceOf c :: acc) rest := by
  unfold escapeChar
  split
  case h_8 quote backslash back feed line carriage tab =>
    split
    case isTrue control =>
      have named : pieceOf c = .unit c.toNat := if_pos ⟨control, by
        simp only [List.mem_cons, List.not_mem_nil, or_false, not_or]
        exact ⟨back, feed, line, carriage, tab⟩⟩
      rw [named]
      simp only [List.cons_append, List.nil_append, readPieces, hexUnit?_hexByte control]
    case isFalse printable =>
      have plain : pieceOf c = .char c := if_neg fun control => printable control.1
      rw [plain, List.singleton_append, readPieces_char quote backslash printable]
  all_goals rfl

theorem readPieces_flatMap (fuel : Nat) (acc : List Piece) (cs rest : List Char)
    (enough : cs.length < fuel) :
    readPieces fuel acc (cs.flatMap escapeChar ++ '"' :: rest) =
      some (acc.reverse ++ cs.map pieceOf, rest) := by
  induction cs generalizing fuel acc with
  | nil =>
    obtain ⟨fuel, rfl⟩ := Nat.exists_eq_succ_of_ne_zero (Nat.ne_of_gt enough)
    simp [readPieces]
  | cons c cs ih =>
    obtain ⟨fuel, rfl⟩ := Nat.exists_eq_succ_of_ne_zero (Nat.ne_zero_of_lt enough)
    rw [List.flatMap_cons, List.append_assoc, readPieces_escapeChar,
      ih fuel _ (Nat.lt_of_succ_lt_succ enough)]
    simp

/-- No written character is half of a pair. -/
theorem joinPieces_pieceOf (cs : List Char) : joinPieces (cs.map pieceOf) = some cs := by
  induction cs with
  | nil => rfl
  | cons c cs ih =>
    rw [List.map_cons, pieceOf]
    split
    · next control =>
      have small : c.toNat < 0xd800 ∨ 0xdfff < c.toNat := .inl (by omega)
      rw [joinPieces.eq_def]
      simp only
      rw [if_pos small, ih, Option.map_some, Char.ofNat_toNat]
    · rw [joinPieces, ih, Option.map_some]

theorem length_le_length_flatMap (cs : List Char) :
    cs.length ≤ (cs.flatMap escapeChar).length := by
  have each (c : Char) : 1 ≤ (escapeChar c).length := by
    unfold escapeChar
    split
    case h_8 => split <;> simp
    all_goals simp
  induction cs with
  | nil => exact Nat.le_refl 0
  | cons c cs ih =>
    have := each c
    rw [List.flatMap_cons, List.length_append, List.length_cons]
    omega

/-- A string is read back after its opening quote. -/
theorem readString_quoted (s : String) (rest : List Char) :
    readString (s.toList.flatMap escapeChar ++ '"' :: rest) = some (some s, rest) := by
  have enough : s.toList.length <
      (s.toList.flatMap escapeChar ++ '"' :: rest).length + 1 := by
    have := length_le_length_flatMap s.toList
    rw [List.length_append]
    omega
  rw [readString, readPieces_flatMap _ [] s.toList rest enough, Option.map_some, List.reverse_nil,
    List.nil_append]
  simp only [joinPieces_pieceOf, Option.map_some, String.ofList_toList]

/-! ## numbers -/

/-- What can stand behind a value: a comma, a line break or nothing. -/
def Stops (rest : List Char) : Prop := ∀ c ∈ rest.head?, c = ',' ∨ c = '\n'

/-- What cannot continue a run of digits. -/
def NoDigit (rest : List Char) : Prop := ∀ c ∈ rest.head?, Text.digit? c = none

theorem noDigit_cons {c : Char} (h : Text.digit? c = none) : NoDigit (c :: rest) := by
  intro c first
  cases first
  exact h

theorem Stops.noDigit (s : Stops rest) : NoDigit rest := by
  intro c first
  rcases s c first with rfl | rfl <;> rfl

theorem digit?_digitChar {d : Nat} (h : d < 10) : Text.digit? (digitChar d) = some d := by
  interval_cases d <;> rfl

/-- A run of digits is read up to what cannot continue it. -/
theorem readDigits_append {ds : List Nat} (digits : ∀ d ∈ ds, d < 10) (stop : NoDigit rest) :
    readDigits (ds.map digitChar ++ rest) = (ds, rest) := by
  induction ds with
  | nil =>
    cases rest with
    | nil => rfl
    | cons c rest => simp [readDigits, stop c rfl]
  | cons d ds ih =>
    have first := digit?_digitChar (digits d List.mem_cons_self)
    have others := ih fun d mem => digits d (List.mem_cons_of_mem _ mem)
    rw [List.map_cons, List.cons_append, readDigits, first]
    simp only [others]

theorem readDigits1_append {ds : List Nat} (digits : Digits ds) (stop : NoDigit rest) :
    readDigits1 (ds.map digitChar ++ rest) = some (ds, rest) := by
  rw [readDigits1, readDigits_append digits.lt_ten stop]
  split
  · next none => exact absurd (congrArg Prod.fst none) digits.ne_nil
  · rfl

/-- The characters of a fraction. -/
def fractionText (fraction : Option (List Nat)) : List Char :=
  match fraction with
  | none => []
  | some ds => '.' :: ds.map digitChar

/-- The characters of an exponent. -/
def exponentText (exponent : Option (Bool × List Nat)) : List Char :=
  match exponent with
  | none => []
  | some (up, ds) => 'e' :: (if up then '+' else '-') :: ds.map digitChar

theorem readExponent_append {exponent : Option (Bool × List Nat)}
    (digits : ∀ e ∈ exponent, Digits e.2) (stop : Stops rest) :
    readExponent (exponentText exponent ++ rest) = some (exponent, rest) := by
  cases exponent with
  | none =>
    rw [exponentText, List.nil_append]
    unfold readExponent
    split
    · next rest => exact absurd (stop 'e' rfl) (by decide)
    · next rest => exact absurd (stop 'E' rfl) (by decide)
    · rfl
  | some e =>
    obtain ⟨up, ds⟩ := e
    have run := readDigits1_append (digits (up, ds) rfl) stop.noDigit
    cases up <;> simp [exponentText, readExponent, readSigned, run]

theorem noDigit_exponentText (exponent : Option (Bool × List Nat)) (stop : Stops rest) :
    NoDigit (exponentText exponent ++ rest) := by
  cases exponent with
  | none => exact stop.noDigit
  | some e => exact noDigit_cons rfl

theorem readFraction_append {fraction : Option (List Nat)} (digits : ∀ ds ∈ fraction, Digits ds)
    (exponent : Option (Bool × List Nat)) (stop : Stops rest) :
    readFraction (fractionText fraction ++ (exponentText exponent ++ rest)) =
      some (fraction, exponentText exponent ++ rest) := by
  cases fraction with
  | none =>
    rw [fractionText, List.nil_append]
    unfold readFraction
    split
    · next same =>
      cases exponent with
      | none =>
        rw [exponentText, List.nil_append] at same
        exact absurd (stop '.' (by rw [same]; rfl)) (by decide)
      | some e => cases same
    · rfl
  | some ds =>
    have run := readDigits1_append (digits ds rfl) (noDigit_exponentText exponent stop)
    simp [fractionText, readFraction, run]

theorem noDigit_fractionText (fraction : Option (List Nat)) (exponent : Option (Bool × List Nat))
    (stop : Stops rest) : NoDigit (fractionText fraction ++ (exponentText exponent ++ rest)) := by
  cases fraction with
  | none => exact noDigit_exponentText exponent stop
  | some ds => exact noDigit_cons rfl

theorem text_eq (l : Literal) : l.text =
    (if l.negative then ['-'] else []) ++
      (l.whole.map digitChar ++ (fractionText l.fraction ++ exponentText l.exponent)) := by
  simp only [Literal.text, List.append_assoc]
  rfl

/-- A literal is read back. -/
theorem readNumber_text {l : Literal} (sound : l.Sound) (stop : Stops rest) :
    readNumber (l.text ++ rest) = some (l, rest) := by
  obtain ⟨negative, whole, fraction, exponent⟩ := l
  have run := readDigits1_append sound.whole
    (noDigit_fractionText fraction exponent stop)
  have leading : ¬ (whole.head? = some 0 ∧ whole.length ≠ 1) := fun ⟨zero, more⟩ =>
    more (sound.leading zero)
  have parts := readFraction_append sound.fraction exponent stop
  have power := readExponent_append sound.exponent stop
  simp only [text_eq, List.append_assoc]
  cases negative with
  | true => simp [readNumber, run, leading, parts, power]
  | false =>
    unfold readNumber
    split
    next negative cs same =>
    split at same
    · next sign =>
      obtain ⟨d, ds, small, rfl⟩ := sound.whole.exists_cons
      have value := digit?_digitChar small
      rw [(List.cons.inj sign).1] at value
      contradiction
    · cases same
      simp [run, leading, parts, power]

/-! ## documents -/

/-- A document that can be written: its strings are whole, its numbers literals. -/
inductive Writable : Json → Prop
  | null : Writable .null
  | bool (b : Bool) : Writable (.bool b)
  | number {l : Literal} (sound : l.Sound) : Writable (.number l)
  | text (s : String) : Writable (.text s)
  | array {items : List Json} (each : ∀ j ∈ items, Writable j) : Writable (.array items)
  | record {fields : List (String × Json)} (each : ∀ f ∈ fields, Writable f.2) :
      Writable (.record fields)

/-- A document is read back, and what stands behind it is left. -/
def Reads (j : Json) : Prop :=
  ∀ level fuel rest, (print level j).length ≤ fuel → Stops rest →
    readValue fuel (print level j ++ rest) = some (j, rest)

theorem skip_newline (level : Nat) (cs : List Char) : skip (newline level ++ cs) = skip cs := by
  have blanks : ∀ n, skip (List.replicate n ' ' ++ cs) = skip cs := by
    intro n
    induction n with
    | zero => rfl
    | succ n ih => exact ih
  exact blanks (2 * level)

theorem readValue_newline (fuel level : Nat) (cs : List Char) :
    readValue fuel (newline level ++ cs) = readValue fuel cs := by
  cases fuel with
  | zero => rfl
  | succ fuel => rw [readValue, readValue, skip_newline]

theorem readItems_newline (fuel level : Nat) (acc : List Json) (cs : List Char) :
    readItems fuel acc (newline level ++ cs) = readItems fuel acc cs := by
  cases fuel with
  | zero => rfl
  | succ fuel => rw [readItems, readItems, readValue_newline]

theorem readFields_newline (fuel level : Nat) (acc : List (Option String × Json)) (cs : List Char) :
    readFields fuel acc (newline level ++ cs) = readFields fuel acc cs := by
  cases fuel with
  | zero => rfl
  | succ fuel => rw [readFields, readFields, skip_newline]

theorem stops_printItems (level : Nat) (items : List Json) (rest : List Char) :
    Stops (printItems level items ++ rest) := by
  intro c first
  cases items with
  | nil =>
    cases first
    exact .inr rfl
  | cons j items =>
    cases first
    exact .inl rfl

theorem stops_printFields (level : Nat) (fields : List (Option String × Json)) (rest : List Char) :
    Stops (printFields level fields ++ rest) := by
  intro c first
  cases fields with
  | nil =>
    cases first
    exact .inr rfl
  | cons f fields =>
    cases first
    exact .inl rfl

/-- The members of an array are read up to its bracket. -/
theorem readItems_print (level : Nat) {items : List Json} (each : ∀ j ∈ items, Reads j) {j : Json}
    (first : Reads j) (fuel : Nat) (acc : List Json) (rest : List Char)
    (enough : (print (level + 1) j ++ printItems level items).length < fuel) :
    readItems fuel acc (print (level + 1) j ++ (printItems level items ++ rest)) =
      some (acc.reverse ++ j :: items, rest) := by
  induction items generalizing j fuel acc with
  | nil =>
    obtain ⟨fuel, rfl⟩ := Nat.exists_eq_succ_of_ne_zero (Nat.ne_zero_of_lt enough)
    rw [List.length_append] at enough
    have value := first (level + 1) fuel _ (by omega) (stops_printItems level [] rest)
    have close : skip (printItems level [] ++ rest) = ']' :: rest := by
      rw [printItems, List.append_assoc, skip_newline]
      rfl
    rw [readItems, value]
    simp only [close]
    simp
  | cons j' items ih =>
    obtain ⟨fuel, rfl⟩ := Nat.exists_eq_succ_of_ne_zero (Nat.ne_zero_of_lt enough)
    have value := first (level + 1) fuel _ (by rw [List.length_append] at enough; omega)
      (stops_printItems level (j' :: items) rest)
    have next : skip (printItems level (j' :: items) ++ rest) =
        ',' :: (newline (level + 1) ++ (print (level + 1) j' ++ (printItems level items ++ rest))) := by
      simp [printItems, skip, isSpace]
    rw [readItems, value]
    simp only [next]
    rw [readItems_newline, ih (fun j mem => each j (List.mem_cons_of_mem _ mem))
      (each j' List.mem_cons_self)]
    · simp
    · simp only [printItems, List.length_append, List.length_cons] at enough ⊢
      omega

/-- The text of one member of an object. -/
def printField (level : Nat) (key : String) (v : Json) : List Char :=
  quoted key ++ ([':', ' '] ++ print (level + 1) v)

/-- A member is read up to the comma or the brace behind it. -/
theorem readFields_printField {level fuel : Nat} {acc : List (Option String × Json)} {key : String}
    {v : Json} (value : readValue fuel (print (level + 1) v ++ rest) = some (v, rest)) :
    (∀ tail, skip rest = ',' :: tail → readFields (fuel + 1) acc (printField level key v ++ rest) =
      readFields fuel ((some key, v) :: acc) tail) ∧
    ∀ tail, skip rest = '\x7d' :: tail → readFields (fuel + 1) acc (printField level key v ++ rest) =
      some (((some key, v) :: acc).reverse, tail) := by
  have blank (cs : List Char) : readValue fuel (' ' :: cs) = readValue fuel cs := by
    cases fuel <;> rfl
  have opens : skip (printField level key v ++ rest) =
      '"' :: (key.toList.flatMap escapeChar ++ '"' ::
        (':' :: ' ' :: (print (level + 1) v ++ rest))) := by
    simp [printField, quoted, skip, isSpace]
  have colon (cs : List Char) : skip (':' :: cs) = ':' :: cs := rfl
  refine ⟨fun tail next => ?_, fun tail close => ?_⟩
  · rw [readFields, opens]
    simp only [readString_quoted, colon, blank, value, next]
  · rw [readFields, opens]
    simp only [readString_quoted, colon, blank, value, close]

/-- The members of an object are read up to its brace. -/
theorem readFields_print (level : Nat) {fields : List (String × Json)}
    (each : ∀ f ∈ fields, Reads f.2) (key : String) {v : Json} (first : Reads v) (fuel : Nat)
    (acc : List (Option String × Json)) (rest : List Char)
    (enough : (printField level key v ++
      printFields level (fields.map fun (k, v) => (some k, v))).length < fuel) :
    readFields fuel acc (printField level key v ++
        (printFields level (fields.map fun (k, v) => (some k, v)) ++ rest)) =
      some (acc.reverse ++ (some key, v) :: fields.map fun (k, v) => (some k, v), rest) := by
  induction fields generalizing key v fuel acc with
  | nil =>
    obtain ⟨fuel, rfl⟩ := Nat.exists_eq_succ_of_ne_zero (Nat.ne_zero_of_lt enough)
    simp only [printField, List.length_append] at enough
    have value := first (level + 1) fuel _ (by omega) (stops_printFields level [] rest)
    have close : skip (printFields level [] ++ rest) = '\x7d' :: rest := by
      rw [printFields, List.append_assoc, skip_newline]
      rfl
    rw [List.map_nil, (readFields_printField value).2 rest close]
    simp
  | cons f fields ih =>
    obtain ⟨key', v'⟩ := f
    obtain ⟨fuel, rfl⟩ := Nat.exists_eq_succ_of_ne_zero (Nat.ne_zero_of_lt enough)
    rw [List.map_cons] at enough ⊢
    generalize others : (fields.map fun (k, v) => ((some k, v) : Option String × Json)) = fs at *
    have value := first (level + 1) fuel _
      (by simp only [printField, List.length_append] at enough; omega)
      (stops_printFields level ((some key', v') :: fs) rest)
    have next : skip (printFields level ((some key', v') :: fs) ++ rest) =
        ',' :: (newline (level + 1) ++ (printField level key' v' ++ (printFields level fs ++ rest))) := by
      simp [printFields, printField, skip, isSpace]
    rw [(readFields_printField value).1 _ next, readFields_newline,
      ih (fun f mem => each f (List.mem_cons_of_mem _ mem)) key' (each (key', v') List.mem_cons_self)]
    · simp
    · simp only [printFields, printField, List.length_append, List.length_cons, Option.getD_some]
        at enough ⊢
      omega

/-- What a number begins with. -/
def numberStarts : List Char := '-' :: (List.range 10).map digitChar

theorem exists_cons_text {l : Literal} (sound : l.Sound) :
    ∃ c cs, l.text = c :: cs ∧ c ∈ numberStarts := by
  obtain ⟨d, ds, small, whole⟩ := sound.whole.exists_cons
  rw [text_eq, whole]
  cases l.negative with
  | true => exact ⟨_, _, rfl, List.mem_cons_self⟩
  | false =>
    exact ⟨_, _, rfl, List.mem_cons_of_mem _ (List.mem_map_of_mem (List.mem_range.mpr small))⟩

theorem readValue_number {c : Char} (h : c ∈ numberStarts) (fuel : Nat) (cs : List Char) :
    readValue (fuel + 1) (c :: cs) =
      (readNumber (c :: cs)).map fun (l, rest) => (.number l, rest) := by
  fin_cases h <;> rfl

/-- What a written document begins with. -/
theorem Writable.exists_cons {j : Json} (w : Writable j) (level : Nat) :
    ∃ c cs, print level j = c :: cs ∧ isSpace c = false ∧ c ≠ ']' := by
  cases w with
  | null => exact ⟨_, _, rfl, rfl, by decide⟩
  | bool b => cases b <;> exact ⟨_, _, rfl, rfl, by decide⟩
  | number sound =>
    obtain ⟨c, cs, same, start⟩ := exists_cons_text sound
    refine ⟨c, cs, same, ?_⟩
    fin_cases start <;> exact ⟨rfl, by decide⟩
  | text s => exact ⟨_, _, rfl, rfl, by decide⟩
  | @array items each => cases items <;> exact ⟨_, _, rfl, rfl, by decide⟩
  | @record fields each => cases fields <;> exact ⟨_, _, rfl, rfl, by decide⟩

/-- Some fuel is left for a value, since no text is empty. -/
theorem Writable.reads_of_step {j : Json} (w : Writable j)
    (step : ∀ level fuel rest, (print level j).length ≤ fuel + 1 → Stops rest →
      readValue (fuel + 1) (print level j ++ rest) = some (j, rest)) : Reads j := by
  intro level fuel rest enough stop
  obtain ⟨c, cs, same, -⟩ := w.exists_cons level
  cases fuel with
  | zero =>
    rw [same] at enough
    contradiction
  | succ fuel => exact step level fuel rest enough stop

theorem reads_number {l : Literal} (sound : l.Sound) : Reads (.number l) := by
  refine (Writable.number sound).reads_of_step fun level fuel rest _ stop => ?_
  obtain ⟨c, cs, same, start⟩ := exists_cons_text sound
  have value := readNumber_text sound stop
  rw [same, List.cons_append] at value
  rw [print, same, List.cons_append, readValue_number start, value]
  rfl

theorem reads_text (s : String) : Reads (.text s) := by
  refine (Writable.text s).reads_of_step fun level fuel rest _ _ => ?_
  have opens : print level (.text s) ++ rest =
      '"' :: (s.toList.flatMap escapeChar ++ '"' :: rest) := by
    simp [text, print, quoted]
  rw [opens]
  change (readString _).map _ = _
  rw [readString_quoted]
  rfl

theorem readValue_array {fuel : Nat} {items : List Json} {c : Char} {cs tail : List Char}
    (first : skip cs = c :: tail) (apart : c ≠ ']')
    (members : readItems fuel [] (c :: tail) = some (items, rest)) :
    readValue (fuel + 1) ('[' :: cs) = some (.array items, rest) := by
  have bracket : skip ('[' :: cs) = '[' :: cs := rfl
  simp only [readValue, bracket, first]
  split
  · next close => exact absurd (List.cons.inj close).1 apart
  · rw [members]
    rfl

theorem readValue_object {fuel : Nat} {fields : List (Option String × Json)} {c : Char}
    {cs tail : List Char} (first : skip cs = c :: tail) (apart : c ≠ '\x7d')
    (members : readFields fuel [] (c :: tail) = some (fields, rest)) :
    readValue (fuel + 1) ('\x7b' :: cs) = some (.object fields, rest) := by
  have brace : skip ('\x7b' :: cs) = '\x7b' :: cs := rfl
  simp only [readValue, brace, first]
  split
  · next close => exact absurd (List.cons.inj close).1 apart
  · rw [members]
    rfl

/-- An array is read if its members are. -/
theorem reads_array {items : List Json} (each : ∀ j ∈ items, Writable j)
    (reads : ∀ j ∈ items, Reads j) : Reads (.array items) := by
  refine (Writable.array each).reads_of_step fun level fuel rest enough _ => ?_
  cases items with
  | nil => rfl
  | cons j items =>
    obtain ⟨c, cs, first, solid, apart⟩ := (each j List.mem_cons_self).exists_cons (level + 1)
    have opens : print level (.array (j :: items)) ++ rest = '[' :: (newline (level + 1) ++
        (c :: (cs ++ (printItems level items ++ rest)))) := by
      simp [print, first]
    have there : skip (newline (level + 1) ++ (c :: (cs ++ (printItems level items ++ rest)))) =
        c :: (cs ++ (printItems level items ++ rest)) := by
      rw [skip_newline, skip, List.dropWhile_cons_of_neg (by simp [solid])]
    have members := readItems_print level (fun j mem => reads j (List.mem_cons_of_mem _ mem))
      (reads j List.mem_cons_self) fuel [] rest (by
        simp only [print, newline, List.length_append, List.length_cons] at enough ⊢
        omega)
    rw [first, List.cons_append] at members
    rw [opens]
    exact readValue_array there apart members

/-- An object is read if the values of its members are. -/
theorem reads_record {fields : List (String × Json)} (each : ∀ f ∈ fields, Writable f.2)
    (reads : ∀ f ∈ fields, Reads f.2) : Reads (.record fields) := by
  refine (Writable.record each).reads_of_step fun level fuel rest enough _ => ?_
  cases fields with
  | nil => rfl
  | cons f fields =>
    obtain ⟨key, v⟩ := f
    have opens : print level (.record ((key, v) :: fields)) ++ rest = '\x7b' ::
        (newline (level + 1) ++ (printField level key v ++
          (printFields level (fields.map fun (k, v) => (some k, v)) ++ rest))) := by
      simp [record, print, printField]
    have there (cs : List Char) : skip (newline (level + 1) ++ (printField level key v ++ cs)) =
        printField level key v ++ cs := by
      rw [skip_newline]
      simp [printField, quoted, skip, isSpace]
    have members := readFields_print level (fun f mem => reads f (List.mem_cons_of_mem _ mem))
      key (reads (key, v) List.mem_cons_self) fuel [] rest (by
        have length := congrArg List.length opens
        simp only [newline, List.length_append, List.length_cons] at length enough ⊢
        omega)
    rw [opens]
    exact readValue_object (there _) (by decide) members

/-- No step of reading takes less than a character, so the fuel lasts for whatever is written. -/
theorem Writable.reads {j : Json} (w : Writable j) : Reads j := by
  induction w with
  | null => exact Writable.null.reads_of_step fun _ _ _ _ _ => rfl
  | bool b => exact (Writable.bool b).reads_of_step fun _ _ _ _ _ => by cases b <;> rfl
  | number sound => exact reads_number sound
  | text s => exact reads_text s
  | array each ih => exact reads_array each ih
  | record each ih => exact reads_record each ih

/-- The text of a document is read as that document. -/
theorem Writable.parse?_render {j : Json} (w : Writable j) : parse? j.render = some j := by
  have value := w.reads 0 (2 * (print 0 j).length + 2) [] (by omega) (by simp [Stops])
  rw [List.append_nil] at value
  simp only [parse?, render, String.toList_ofList, value]
  rfl

end HomCircuit.Json
