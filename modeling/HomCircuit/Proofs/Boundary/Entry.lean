import HomCircuit.Boundary.Entry
import HomCircuit.Proofs.Boundary.Body
import HomCircuit.Proofs.Program.Residues

/-!
# HomCircuit.Proofs.Boundary.Entry

What the entry points leave in the caller's output.

```
callBy    words of the inputs        │ one argument │ the next │ … │
          words of the output        │ one value    │ the next │ … │
```

The output of a program is written value by value, and each value is checked as its turn comes. A fault
leaves the output alone only if no check fails after the first value was written; so values must fit.

* `Program.width`, `Program.wordsOf` — the words that stand for a value of a program;
* `Program.Fits` — a value as a call should return it;
* `exec_writeOutputs` — values that fit are written one after the other;
* `exec_callBy` — the steps of a call, `delivers_callBy` — what it makes of the output;
* `atomic_encrypt`, `atomic_operate`, … — the other entry points.
-/

namespace HomCircuit

/-! ## values in words -/

namespace Program

variable {p : Program} {v : ValueId} {x : Value} {simulation : Bool}

/-- The partition of a value. -/
def partitionOf? (p : Program) (v : ValueId) : Option Partition :=
  (p.graph.slot? v).bind fun slot => p.partitions.get? (p.graph.slotPartition slot)

/-- Words that a value takes: those of a ciphertext of its partition, or one in simulation. -/
def width (p : Program) (simulation : Bool) (v : ValueId) : Nat :=
  if simulation then 1 else (p.partitionOf? v).elim 0 Partition.ciphertextLength

/-- The words that stand for a value: those of a ciphertext, and of anything else its residue by the
plaintext modulus of its partition. -/
def wordsOf (p : Program) (v : ValueId) : Value → List UInt64
  | .ciphertext words => words
  | .cleartext message => [message % (p.partitionOf? v).elim 0 Partition.plaintextModulus]
  | .simulated s => [s.shadow % (p.partitionOf? v).elim 0 Partition.plaintextModulus]

/-- A value as it should be returned: a stand-in in simulation, and else a ciphertext of the length of its
partition. -/
def Fits (p : Program) (simulation : Bool) (v : ValueId) (x : Value) : Prop :=
  ∃ q, p.partitionOf? v = some q ∧
    if simulation then ∃ s, x = .simulated s
    else ∃ ct, x = .ciphertext ct ∧ ct.length = q.ciphertextLength

/-- Such a value takes the words that are kept for it. -/
theorem Fits.length (h : p.Fits simulation v x) : (p.wordsOf v x).length = p.width simulation v := by
  obtain ⟨q, known, h⟩ := h
  cases simulation with
  | true =>
      obtain ⟨s, rfl⟩ := h
      rfl
  | false =>
      obtain ⟨ct, rfl, length⟩ := h
      simp [wordsOf, width, known, length]

/-- No value is without words. -/
theorem width_pos {q : Partition} (known : p.partitionOf? v = some q) : 0 < p.width simulation v := by
  cases simulation <;> simp [width, known, Partition.ciphertextLength]

/-- A value of a program is in a partition. -/
theorem Checked.exists_partitionOf? (checked : p.Checked) {slot : Nat}
    (place : p.graph.slot? v = some slot) : ∃ q, p.partitionOf? v = some q := by
  let e : Environment := { (default : Environment) with partitions := p.partitions }
  obtain ⟨q, known⟩ := (checked.covers (e := e) rfl).slot checked.wired
    (Graph.valueAt_of_slot? place).1
  exact ⟨q, Option.bind_eq_some_iff.mpr ⟨slot, place, Environment.get?_of_partition known⟩⟩

/-- An input is in the partition that it is declared for. -/
theorem Checked.partitionOf?_input (checked : p.Checked) {input : ValueId × PartitionId}
    (declared : input ∈ p.inputs) : p.partitionOf? input.1 = p.partitions.get? input.2 := by
  obtain ⟨k, place, found⟩ := checked.wired.exists_slot? (checked.arguments ▸ declared)
  simp [partitionOf?, place, Graph.slotPartition_argument found]

/-- Inputs and outputs are in partitions. -/
theorem Checked.placed_values (checked : p.Checked) :
    ∀ v ∈ p.inputs.map (·.1) ++ p.outputs, ∃ q, p.partitionOf? v = some q := by
  intro v mem
  rcases List.mem_append.mp mem with input | output
  · obtain ⟨a, declared, rfl⟩ := List.mem_map.mp input
    exact checked.partitionOf?_input declared ▸ checked.input_known a declared
  · obtain ⟨slot, place⟩ := checked.output_known v output
    exact checked.exists_partitionOf? place

end Program

namespace Boundary

variable {p : Program} {v : ValueId} {x : Value} {simulation : Bool} {c : Context}

/-! ## pieces -/

@[simp] theorem total_nil : total [] = 0 := rfl

@[simp] theorem total_cons (n : Nat) (rest : List Nat) : total (n :: rest) = n + total rest := rfl

/-- Pieces for as many words as there are make up the words, and have the lengths asked for. -/
theorem pieces_spec {lengths : List Nat} {words : List UInt64} (all : total lengths = words.length) :
    (pieces lengths words).flatten = words ∧ (pieces lengths words).map List.length = lengths := by
  induction lengths generalizing words with
  | nil =>
      obtain rfl := List.eq_nil_of_length_eq_zero all.symm
      exact ⟨rfl, rfl⟩
  | cons n rest ih =>
      have fewer : total rest = (words.drop n).length := by
        simp only [total_cons, List.length_drop] at all ⊢
        omega
      obtain ⟨joined, lengths⟩ := ih fewer
      constructor
      · simp [pieces, joined]
      · simp only [pieces, List.map_cons, lengths, List.length_take, List.cons.injEq, and_true]
        simp only [total_cons] at all
        omega

/-! ## outputs -/

/-- A value that fits is written over as many words as are kept for it. -/
theorem exec_writeOutput (fits : p.Fits simulation v x) (front rest : List UInt64) :
    (writeOutput p front.length (p.width simulation v) v x).exec ⟨c, .stored (front ++ rest)⟩ =
      (.ok (), ⟨c, .stored (front ++ p.wordsOf v x ++ rest.drop (p.width simulation v))⟩) := by
  have length := fits.length
  obtain ⟨q, known, fits⟩ := fits
  cases simulation with
  | true =>
      obtain ⟨s, rfl⟩ := fits
      obtain ⟨slot, place, there⟩ := Option.bind_eq_some_iff.mp known
      simp [writeOutput, Program.decryptValue_residue place there, Except.mapError, Body.exec_write,
        Program.wordsOf, Program.width, known]
  | false =>
      obtain ⟨ct, rfl, -⟩ := fits
      change ct.length = _ at length
      simp [writeOutput, Body.exec_write, Program.wordsOf, length]

/-- Values that fit are written one after the other, and cover the output. -/
theorem exec_writeOutputs {ids : List ValueId} {xs : List Value}
    (fits : List.Forall₂ (p.Fits simulation) ids xs) (front rest : List UInt64)
    (room : total (ids.map (p.width simulation)) = rest.length) :
    (writeOutputs p front.length (xs.zip ((ids.map (p.width simulation)).zip ids))).exec
        ⟨c, .stored (front ++ rest)⟩ =
      (.ok (), ⟨c, .stored (front ++ (ids.zip xs).flatMap fun y => p.wordsOf y.1 y.2)⟩) := by
  induction fits generalizing front rest with
  | nil =>
      obtain rfl := List.eq_nil_of_length_eq_zero room.symm
      simp [writeOutputs]
  | @cons v x ids xs first others ih =>
      have fewer : total (ids.map (p.width simulation)) =
          (rest.drop (p.width simulation v)).length := by
        simp only [List.map_cons, total_cons, List.length_drop] at room ⊢
        omega
      have later := ih (front ++ p.wordsOf v x) _ fewer
      simp only [List.length_append, first.length] at later
      simpa [writeOutputs, exec_writeOutput first] using later

/-! ## a call of a program -/

theorem exec_valueWords {q : Partition} (known : p.partitionOf? v = some q) (s : Scene) :
    (valueWords p v).exec s = (.ok (p.width (s.context.mode = .simulation) v), s) := by
  obtain ⟨slot, place, there⟩ := Option.bind_eq_some_iff.mp known
  simp only [valueWords, Program.width, Body.exec_bind, Body.exec_context, decide_eq_true_eq]
  split <;> simp [place, Program.partition, there, known, Except.mapError, Except.map]

/-- The steps of a call: places and lengths are checked, the call answers, and outputs are written. -/
theorem exec_callBy (placed : ∀ v ∈ p.inputs.map (·.1) ++ p.outputs, ∃ q, p.partitionOf? v = some q)
    (call : List Value → Context → Except RunError (List Value) × Trace × Context) (inputs : Words)
    (s : Scene) (simulates : decide (s.context.mode = .simulation) = simulation) :
    let given := p.inputs.map fun a => p.width simulation a.1
    let returned := p.outputs.map (p.width simulation)
    (callBy p call inputs).exec s =
      match inputs.get "inputs", s.out.get "outputs" with
      | .error f, _ => (.error f, s)
      | .ok _, .error f => (.error f, s)
      | .ok words, .ok old =>
        if total given ≠ words.length then
          (.error (.ofError (.bufferShape "program inputs" (total given) words.length)), s)
        else if total returned ≠ old.length then
          (.error (.ofError (.bufferShape "program outputs" (total returned) old.length)), s)
        else
          let r := call ((pieces given words).map (inputValue simulation)) s.context
          match r.1 with
          | .error err => (.error (.ofError err), { s with context := r.2.2 })
          | .ok xs =>
            (writeOutputs p 0 (xs.zip (returned.zip p.outputs))).exec { s with context := r.2.2 } := by
  intro given returned
  subst simulates
  have width {v : ValueId} (mem : v ∈ p.inputs.map (·.1) ++ p.outputs) :
      (valueWords p v).exec s = (.ok (p.width (s.context.mode = .simulation) v), s) := by
    obtain ⟨q, known⟩ := placed v mem
    exact exec_valueWords known s
  have inputs' : (p.inputs.mapM fun (a : ValueId × PartitionId) => valueWords p a.1).exec s =
      (.ok given, s) :=
    Body.exec_mapM fun a mem => width (List.mem_append_left _ (List.mem_map_of_mem mem))
  have outputs' : (p.outputs.mapM (valueWords p)).exec s = (.ok returned, s) :=
    Body.exec_mapM fun v mem => width (List.mem_append_right _ mem)
  simp only [callBy, Body.exec_bind, Body.exec_lift, Body.exec_output]
  cases inputs.get "inputs" with
  | error f => rfl
  | ok words =>
      simp only
      cases s.out.get "outputs" with
      | error f => rfl
      | ok old =>
          simp only [inputs', outputs', Body.exec_checkLength, Body.exec_context]
          by_cases first : total given = words.length
          · by_cases second : total returned = old.length
            · simp only [first, second, if_true, Body.exec_inContext, ne_eq, not_true, if_false]
              cases (call ((pieces given words).map (inputValue (s.context.mode = .simulation)))
                s.context).1 <;> rfl
            · simp [first, second]
          · simp [first]

/-- Only what calls answer for inputs of the right number matters. -/
theorem exec_callBy_congr
    (placed : ∀ v ∈ p.inputs.map (·.1) ++ p.outputs, ∃ q, p.partitionOf? v = some q)
    {call call' : List Value → Context → Except RunError (List Value) × Trace × Context}
    {inputs : Words} {s : Scene}
    (same : ∀ values, values.length = p.inputs.length →
      call values s.context = call' values s.context) :
    (callBy p call inputs).exec s = (callBy p call' inputs).exec s := by
  rw [exec_callBy placed call inputs s rfl, exec_callBy placed call' inputs s rfl]
  cases inputs.get "inputs" with
  | error f => rfl
  | ok words =>
      cases s.out.get "outputs" with
      | error f => rfl
      | ok old =>
          simp only
          by_cases cut : total (p.inputs.map fun a => p.width (s.context.mode = .simulation) a.1) =
              words.length
          · rw [same _ (by simpa using congrArg List.length (pieces_spec cut).2)]
          · simp [cut]

/-- Inputs of a program cut into pieces, one for each of its inputs: a ciphertext of its partition, or one
word in simulation. -/
def Cuts (p : Program) (simulation : Bool) (parts : List (List UInt64)) : Prop :=
  List.Forall₂ (fun (input : ValueId × PartitionId) part =>
    if simulation then part.length = 1
    else ∃ q, p.partitions.get? input.2 = some q ∧ part.length = q.ciphertextLength) p.inputs parts

/-- What a call of a program makes of the caller's output, where calls answer as given. -/
structure Delivers (p : Program)
    (call : List Value → Context → Except RunError (List Value) × Trace × Context) (c : Context)
    (inputs out : Words) : Prop where
  /-- Unless the call succeeds, the output is what it was. -/
  failed : (enter (some c) out (callBy p call inputs)).status ≠ .ok →
    (enter (some c) out (callBy p call inputs)).out = out
  /-- If it succeeds, the output consists of the values that are returned for the pieces of the input. -/
  succeeded : (enter (some c) out (callBy p call inputs)).status = .ok →
    ∃ parts xs old written, Cuts p (c.mode = .simulation) parts ∧
      inputs.get "inputs" = .ok parts.flatten ∧
      (call (parts.map (inputValue (c.mode = .simulation))) c).1 = .ok xs ∧
      List.Forall₂ (p.Fits (c.mode = .simulation)) p.outputs xs ∧
      written = (p.outputs.zip xs).flatMap (fun y => p.wordsOf y.1 y.2) ∧
      out = .stored old ∧ (enter (some c) out (callBy p call inputs)).out = .stored written ∧
      written.length = old.length

/-- Pieces with the lengths of the inputs. -/
theorem cuts_of_lengths (checked : p.Checked) {parts : List (List UInt64)}
    (lengths : parts.map List.length = p.inputs.map fun a => p.width simulation a.1) :
    Cuts p simulation parts := by
  have same : List.Forall₂ (fun (a : ValueId × PartitionId) (part : List UInt64) =>
      part.length = p.width simulation a.1) p.inputs parts := by
    have eq : List.Forall₂ (· = ·) (parts.map List.length)
        (p.inputs.map fun a => p.width simulation a.1) := by rw [lengths, List.forall₂_eq_eq_eq]
    rw [List.forall₂_map_left_iff, List.forall₂_map_right_iff] at eq
    exact eq.flip
  refine ((List.forall₂_and_left (p := (· ∈ p.inputs)) _ _).mpr ⟨fun a mem => mem, same⟩).imp ?_
  rintro input part ⟨declared, length⟩
  obtain ⟨q, known⟩ := checked.input_known input declared
  cases simulation with
  | true => exact length
  | false =>
      exact ⟨q, known, by simpa [Program.width, checked.partitionOf?_input declared, known] using length⟩

/-- Values that fit take the words that are kept for all of them. -/
theorem length_words {ids : List ValueId} {xs : List Value}
    (fits : List.Forall₂ (p.Fits simulation) ids xs) :
    ((ids.zip xs).flatMap fun y => p.wordsOf y.1 y.2).length =
      total (ids.map (p.width simulation)) := by
  induction fits with
  | nil => rfl
  | cons first _ ih =>
      simp only [List.zip_cons_cons, List.flatMap_cons, List.length_append, List.map_cons, total_cons,
        ih, first.length]

/-- Words are kept for the outputs of a program that has some. -/
theorem total_pos (some_ : p.outputs ≠ []) (placed : ∀ v ∈ p.outputs, ∃ q, p.partitionOf? v = some q) :
    0 < total (p.outputs.map (p.width simulation)) := by
  cases outputs : p.outputs with
  | nil => exact absurd outputs some_
  | cons v rest =>
      obtain ⟨q, known⟩ := placed v (outputs ▸ List.mem_cons_self)
      have : 0 < p.width simulation v := Program.width_pos known
      simp only [List.map_cons, total_cons]
      omega

/-- A call that ends with a fault, and has written nothing. -/
theorem delivers_of_error {call : List Value → Context → Except RunError (List Value) × Trace × Context}
    {inputs out : Words} {f : Fault} {c' : Context}
    (steps : (callBy p call inputs).exec ⟨c, out⟩ = (.error f, ⟨c', out⟩)) :
    Delivers p call c inputs out := by
  have reply := Body.enter_eq c out (callBy p call inputs)
  rw [steps] at reply
  constructor
  · intro _
    rw [reply]
  · intro told
    obtain ⟨a, ok⟩ := Reply.status_eq_ok_iff.mp told
    rw [reply] at ok
    contradiction

/-- A call that has come to write values that fit. -/
theorem delivers_of_fits {call : List Value → Context → Except RunError (List Value) × Trace × Context}
    {inputs : Words} {parts : List (List UInt64)} {xs : List Value} {old : List UInt64} {c' : Context}
    (cuts : Cuts p (c.mode = .simulation) parts) (given : inputs.get "inputs" = .ok parts.flatten)
    (answer : (call (parts.map (inputValue (c.mode = .simulation))) c).1 = .ok xs)
    (fit : List.Forall₂ (p.Fits (c.mode = .simulation)) p.outputs xs)
    (room : total (p.outputs.map (p.width (c.mode = .simulation))) = old.length)
    (steps : (callBy p call inputs).exec ⟨c, .stored old⟩ =
      (writeOutputs p 0 (xs.zip ((p.outputs.map (p.width (c.mode = .simulation))).zip
        p.outputs))).exec ⟨c', .stored old⟩) : Delivers p call c inputs (.stored old) := by
  have ended := steps.trans (exec_writeOutputs fit [] old room)
  have reply := Body.enter_eq c (.stored old) (callBy p call inputs)
  rw [ended] at reply
  constructor
  · intro told
    exact absurd (Reply.status_eq_ok_iff.mpr ⟨(), by rw [reply]⟩) told
  · intro _
    exact ⟨parts, xs, old, _, cuts, given, answer, fit, rfl, rfl, by rw [reply, List.nil_append],
      (length_words fit).trans room⟩

/-- A call delivers if whatever it returns fits: then no check fails after the first value is written. -/
theorem delivers_callBy (checked : p.Checked) (some_ : p.outputs ≠ [])
    {call : List Value → Context → Except RunError (List Value) × Trace × Context}
    (fits : ∀ parts xs, Cuts p (c.mode = .simulation) parts →
      (call (parts.map (inputValue (c.mode = .simulation))) c).1 = .ok xs →
        List.Forall₂ (p.Fits (c.mode = .simulation)) p.outputs xs) (inputs out : Words) :
    Delivers p call c inputs out := by
  have placed := checked.placed_values
  have steps := exec_callBy placed call inputs ⟨c, out⟩ rfl
  cases given : inputs.get "inputs" with
  | error f =>
      have ended : (callBy p call inputs).exec ⟨c, out⟩ = (.error f, ⟨c, out⟩) := by rw [steps, given]
      exact delivers_of_error ended
  | ok words =>
      cases there : out.get "outputs" with
      | error f =>
          have ended : (callBy p call inputs).exec ⟨c, out⟩ = (.error f, ⟨c, out⟩) := by
            rw [steps, given, there]
          exact delivers_of_error ended
      | ok old =>
          simp only [given, there] at steps
          split at steps
          · exact delivers_of_error steps
          · next cut =>
              split at steps
              · exact delivers_of_error steps
              · next room =>
                  obtain ⟨joined, lengths⟩ := pieces_spec (not_not.mp cut)
                  have cuts := cuts_of_lengths checked lengths
                  split at steps
                  · exact delivers_of_error steps
                  · next xs answer =>
                      have kept : 0 < total (p.outputs.map (p.width (c.mode = .simulation))) :=
                        total_pos some_ fun v mem => placed v (List.mem_append_right _ mem)
                      obtain rfl : out = .stored old := Words.eq_stored_of_get there fun none_ => by
                        simp [none_] at room
                        omega
                      exact delivers_of_fits cuts (by rw [joined, given]) answer (fits _ xs cuts answer)
                        (not_not.mp room) steps

/-! ## the other entry points -/

theorem spares_register (name : Option (List UInt8)) (lweDim glweDim polySize : UInt64) (place : Bool) :
    (register name lweDim glweDim polySize place).Spares := by
  cases name with
  | none => exact Body.spares_throw _
  | some bs =>
      refine (Body.spares_lift _).bind fun _ => (Body.spares_lift _).bind fun _ => ?_
      exact (Body.spares_liftRun _).bind fun _ => Body.spares_inContext _

theorem spares_ciphertextLength (id : PartitionId) (place : Bool) :
    (ciphertextLength id place).Spares :=
  (Body.spares_lift _).bind fun _ => (Body.spares_partition id).bind fun _ => Body.spares_pure _

/-- The message of a ciphertext is told as a result, and the output is not touched. -/
theorem spares_decrypt (id : PartitionId) (input : Words) (place : Bool) :
    (decrypt id input place).Spares := by
  refine (Body.spares_lift _).bind fun _ => (Body.spares_lift _).bind fun _ => ?_
  refine (Body.spares_partition id).bind fun _ => (Body.spares_checkLength _ _ _).bind fun _ => ?_
  exact (Body.spares_inContext _).bind fun _ => Body.spares_liftRun _

theorem atomic_encrypt (id : PartitionId) (message nonce : UInt64) : (encrypt id message nonce).Atomic := by
  refine (Body.spares_output _).andThen fun _ => (Body.spares_partition id).andThen fun _ => ?_
  refine (Body.spares_checkLength _ _ _).andThen fun _ => (Body.spares_inContext _).andThen fun _ => ?_
  exact Body.Atomic.unless fun _ => Body.atomic_write _ _

theorem atomic_operate (op : Operation) (id : PartitionId) (inputs : List (List UInt64)) :
    (operate op id inputs).Atomic := by
  refine (Body.spares_output _).andThen fun _ => (Body.spares_partition id).andThen fun _ => ?_
  refine (Body.spares_checkLength _ _ _).andThen fun _ => ?_
  refine (Body.spares_forIn fun _ _ => ?_).andThen fun _ => Body.spares_context.andThen fun _ => ?_
  · exact (Body.spares_checkLength _ _ _).bind fun _ => Body.spares_pure _
  · refine Body.Atomic.unless fun _ => (Body.spares_inContext _).andThen fun _ => ?_
    split
    · exact (Body.spares_throw _).atomic
    · exact (Body.spares_checkLength _ _ _).andThen fun _ => Body.atomic_write _ _

theorem atomic_add (id : PartitionId) (lhs rhs : Words) : (add id lhs rhs).Atomic :=
  (Body.spares_lift _).andThen fun _ => (Body.spares_lift _).andThen fun _ => atomic_operate _ _ _

theorem atomic_neg (id : PartitionId) (input : Words) : (neg id input).Atomic :=
  (Body.spares_lift _).andThen fun _ => atomic_operate _ _ _

theorem atomic_mulPlain (id : PartitionId) (input : Words) (constant : UInt64) :
    (mulPlain id input constant).Atomic :=
  (Body.spares_lift _).andThen fun _ => atomic_operate _ _ _

theorem atomic_lookUp (id : PartitionId) (input table : Words) : (lookUp id input table).Atomic := by
  refine (Body.spares_lift _).andThen fun _ => (Body.spares_lift _).andThen fun _ => ?_
  refine (Body.spares_output _).andThen fun _ => (Body.spares_partition id).andThen fun _ => ?_
  split
  · exact (Body.spares_checkLength _ _ _).andThen fun _ => atomic_operate _ _ _
  · exact atomic_operate _ _ _

end Boundary

end HomCircuit
