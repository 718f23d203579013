import HomCircuit.Schedule.Plan
import HomCircuit.Proofs.Graph.Order
import HomCircuit.Proofs.Graph.Liveness

/-!
# HomCircuit.Proofs.Schedule.Plan

What a prepared plan promises to the workers: its live nodes are closed under producers, the
requested values are found in their slots, and a fixed order has all live nodes.

* `Plan.Sound` — these promises, kept by `Plan.sound_of_prepare`;
* `Plan.reads` — all reads of a call, one for every edge into a live node and one for every
  requested value, so that `Plan.consumers` counts them.
-/

namespace HomCircuit.Plan

/-- What a plan promises to the workers. -/
structure Sound (p : Plan) : Prop where
  wired : p.graph.Wired
  live_lt : ∀ i, p.isLive i = true → i < p.graph.size
  closed : ∀ i, p.isLive i = true → ∀ j ∈ p.graph.producersOf i, p.isLive j = true
  /-- Requested values are in their slots, each slot once. -/
  slots : ∀ q ∈ p.requested, p.graph.slot? q.1 = some q.2
  distinct : p.requestedSlots.Nodup
  /-- Everything that was asked for is requested. -/
  asked : ∀ v ∈ p.options.requested, v ∈ p.requested.map (·.1)
  asked_only : ∀ v ∈ p.requested.map (·.1), v ∈ p.options.requested
  requested_live : ∀ slot ∈ p.requestedSlots, ∀ i, p.graph.producer? slot = some i →
    p.isLive i = true
  order : p.options.deterministic = true → p.order = p.graph.dispatchOrder p.isLive

/-! ## requested values -/

theorem resolve_spec {g : Graph} {values : List ValueId} {found requested : List (ValueId × Nat)}
    (h : resolve g found values = .ok requested)
    (slots : ∀ q ∈ found, g.slot? q.1 = some q.2) (distinct : (found.map (·.2)).Nodup) :
    (∀ q ∈ requested, g.slot? q.1 = some q.2) ∧ (requested.map (·.2)).Nodup ∧
      (∀ v, v ∈ requested.map (·.1) ↔ v ∈ found.map (·.1) ∨ v ∈ values) := by
  induction values generalizing found with
  | nil =>
      simp only [resolve, Except.ok.injEq] at h
      subst h
      exact ⟨slots, distinct, by simp⟩
  | cons v rest ih =>
      simp only [resolve] at h
      cases place : g.slot? v with
      | none => simp [place] at h
      | some slot =>
          simp only [place] at h
          by_cases known : found.any (·.2 == slot) = true
          · rw [if_pos known] at h
            obtain ⟨slots', distinct', members⟩ := ih h slots distinct
            refine ⟨slots', distinct', fun u => ?_⟩
            have same : v ∈ found.map (·.1) := by
              obtain ⟨q, mem, eq⟩ := List.any_eq_true.mp known
              have value := (Graph.valueAt_of_slot? (slots q mem)).2
              have value' := (Graph.valueAt_of_slot? place).2
              rw [beq_iff_eq.mp eq] at value
              exact List.mem_map.mpr ⟨q, mem, value.symm.trans value'⟩
            rw [members, List.mem_cons]
            constructor
            · rintro (old | new)
              · exact .inl old
              · exact .inr (.inr new)
            · rintro (old | rfl | new)
              · exact .inl old
              · exact .inl same
              · exact .inr new
          · rw [if_neg known] at h
            have fresh : slot ∉ found.map (·.2) := by simpa using known
            obtain ⟨slots', distinct', members⟩ := ih h
              (by
                intro q mem
                rcases List.mem_append.mp mem with old | new
                · exact slots q old
                · obtain rfl := List.mem_singleton.mp new
                  exact place)
              (by
                rw [List.map_append, List.map_singleton]
                refine List.nodup_append'.mpr ⟨distinct, List.nodup_singleton _, ?_⟩
                exact List.disjoint_singleton.mpr fresh)
            refine ⟨slots', distinct', fun u => ?_⟩
            rw [members, List.map_append, List.mem_append, List.map_singleton, List.mem_singleton,
              List.mem_cons]
            tauto

/-- A plan can be prepared when the graph has all values that are asked for. -/
theorem resolve_isOk {g : Graph} {values : List ValueId} (known : ∀ v ∈ values, ∃ s, g.slot? v = some s)
    (found : List (ValueId × Nat)) : ∃ requested, resolve g found values = .ok requested := by
  induction values generalizing found with
  | nil => exact ⟨found, rfl⟩
  | cons v rest ih =>
      obtain ⟨⟨slot, place⟩, others⟩ := List.forall_mem_cons.mp known
      simp only [resolve, place]
      exact ih others _

/-! ## live nodes -/

section Live

variable {p : Plan}

theorem isLive_iff_marked {i : Nat} : p.isLive i = true ↔ Graph.Marked p.live i := by
  simp only [isLive, List.getD_eq_getElem?_getD, Graph.Marked]
  cases p.live[i]? <;> simp

theorem mem_liveIndices {i : Nat} : i ∈ p.liveIndices ↔ i < p.graph.size ∧ p.isLive i = true := by
  simp [liveIndices]

theorem nodup_liveIndices : p.liveIndices.Nodup := List.nodup_range.filter _

/-- The node that fills an existing slot, unless it is the slot of an argument. -/
theorem producer?_lt {g : Graph} {slot i : Nat} (h : g.producer? slot = some i) :
    i < g.size ∧ slot = g.outputSlot i := by
  simp only [Graph.producer?] at h
  split at h
  · contradiction
  · split at h
    · simp only [Option.some.injEq] at h
      simp only [Graph.outputSlot]
      omega
    · contradiction

end Live

/-- A plan keeps its promises. -/
theorem sound_of_prepare {g : Graph} {o : CallOptions} {accelerating : Bool} {p : Plan}
    (w : g.Wired) (h : prepare g o accelerating = .ok p) : p.Sound ∧ p.graph = g ∧ p.options = o := by
  simp only [prepare] at h
  cases found : resolve g [] o.requested with
  | error e => simp [found, Except.map] at h
  | ok requested =>
      simp only [found, Except.map, Except.ok.injEq] at h
      obtain ⟨slots, distinct, members⟩ := resolve_spec found (by simp) (by simp)
      refine ⟨?_, by rw [← h], by rw [← h]⟩
      have length : p.live.length = g.size := by
        rw [← h]
        cases o.elide <;> simp [Graph.length_liveNodes]
      have inside (i : Nat) (alive : p.isLive i = true) : i < g.size := by
        rw [isLive_iff_marked] at alive
        obtain ⟨lt, -⟩ := List.getElem?_eq_some_iff.mp alive
        omega
      have graph : p.graph = g := by rw [← h]
      have everything (elide : o.elide = false) (i : Nat) (lt : i < g.size) : p.isLive i = true := by
        rw [isLive_iff_marked, ← h]
        simp [Graph.Marked, elide, lt]
      have marks (elide : o.elide = true) (i : Nat) :
          p.isLive i = true ↔ Graph.Marked (g.liveNodes (requested.map (·.2))) i := by
        rw [isLive_iff_marked, ← h]
        simp [elide]
      exact
        { wired := by rw [graph]; exact w
          live_lt := by rw [graph]; exact inside
          closed := by
            rw [graph]
            intro i alive j producer
            cases elide : o.elide with
            | false => exact everything elide j (Graph.lt_size_of_mem_producersOf producer)
            | true =>
                rw [marks elide] at alive ⊢
                exact Graph.liveNodes_closed alive producer
          slots := by rw [← h]; exact slots
          distinct := by rw [← h]; exact distinct
          asked := by
            rw [← h]
            exact fun v mem => (members v).mpr (.inr mem)
          asked_only := by
            rw [← h]
            intro v mem
            simpa using (members v).mp mem
          requested_live := by
            rw [graph]
            intro slot mem i produced
            have mem' : slot ∈ requested.map (·.2) := by
              rw [← h] at mem
              exact mem
            cases elide : o.elide with
            | false => exact everything elide i (producer?_lt produced).1
            | true =>
                rw [marks elide]
                exact Graph.liveNodes_producer mem' produced (producer?_lt produced).1
          order := by
            intro fixed
            have fixed' : o.deterministic = true := by
              rw [← h] at fixed
              exact fixed
            rw [← h]
            simp only [fixed', if_true]
            rfl }

/-! ## reads -/

/-- The reads of a call: one for every edge into a live node, and one for every requested value. -/
def reads (p : Plan) : List Nat := p.liveIndices.flatMap p.graph.inputsOf ++ p.requestedSlots

/-- Slots are kept for the reads of the call. -/
theorem consumers_eq_count (p : Plan) (slot : Nat) : p.consumers slot = p.reads.count slot := by
  simp only [consumers, reads, List.count_append, List.count_flatMap]
  rfl

end HomCircuit.Plan
