import Trixter.ApiState

/-!
# The map of connections refines a plain map of settings

The plain map holds the status of each live connection. Every operation on the shared map is one on
the plain map (`refines_book`): it answers what the plain map says, an operation that fails changes
nothing, and the handles that the adapters got read what the plain map holds. What carries it is that the
blocks of atomics of two connections are apart. An operation is one step; operations that overlap are not
looked at.
-/

namespace Trixter

open Trixter.Lib

namespace F64

/-- A number is outside `[0, 1]`, or not one. -/
def Outside (x : F64) : Prop := x.isNan ∨ x.lt .zero ∨ F64.lt .one x

instance (x : F64) : Decidable x.Outside := inferInstanceAs (Decidable (_ ∨ _ ∨ _))

theorem contains_iff (x : F64) : contains .zero .one x ↔ ¬x.Outside := by
  unfold contains Outside le lt
  have zero : isNan .zero = false := rfl
  have one : isNan .one = false := rfl
  rw [zero, one]
  cases x.isNan with
  | true => simp
  | false => simp

end F64

theorem validateProbabilityRate_eq (rate : F64) :
    validateProbabilityRate rate =
      if rate.Outside then .error (.invalidInput .probability) else .ok () := by
  unfold validateProbabilityRate
  by_cases outside : rate.Outside
  · rw [if_pos outside, if_neg ((F64.contains_iff rate).not.mpr (not_not.mpr outside))]
  · rw [if_neg outside, if_pos ((F64.contains_iff rate).mpr outside)]

namespace ApiState

/-! ## The plain map -/

/-- The status of each live connection. -/
abbrev Book := ConnId → Option ConnectionStatus

namespace Setting

/-- The setting can be accepted. -/
def Valid : Setting → Prop
  | .terminateProbabilityRate rate => ¬rate.Outside
  | .corruptProbabilityRate rate => ¬rate.Outside
  | _ => True

instance : (v : Setting) → Decidable v.Valid
  | .delay _ => inferInstanceAs (Decidable True)
  | .throttleRate _ => inferInstanceAs (Decidable True)
  | .sliceSize _ => inferInstanceAs (Decidable True)
  | .terminateProbabilityRate _ => inferInstanceAs (Decidable (¬_))
  | .corruptProbabilityRate _ => inferInstanceAs (Decidable (¬_))

/-- A delay fits into the 64 bits that store it. -/
def Fits : Setting → Prop
  | .delay duration => duration < 2 ^ 64
  | _ => True

/-- The status with this setting. -/
def put (status : ConnectionStatus) : Setting → ConnectionStatus
  | .delay duration => { status with delay := duration }
  | .throttleRate rate => { status with throttleRate := rate }
  | .sliceSize size => { status with sliceSize := size }
  | .terminateProbabilityRate rate => { status with terminateProbabilityRate := rate }
  | .corruptProbabilityRate rate => { status with corruptProbabilityRate := rate }

end Setting

/-- The status of a new connection. -/
def firstStatus (first : FirstKnobs) (connInfo : ConnectionInfo) :
    ConnectionStatus where
  connInfo := connInfo
  delay := first.delay.toNat
  throttleRate := first.throttleRate
  sliceSize := first.sliceSize
  terminateProbabilityRate := first.terminateProbability
  corruptProbabilityRate := first.corruptProbability

namespace Op

/-- A delay to be set fits into the 64 bits that store it. -/
def Fits : Op → Prop
  | .set _ value => value.Fits
  | _ => True

/-- The plain map after the operation. -/
def after (book : Book) : Op → Book
  | .insert connInfo _ first => Function.update book connInfo.id (some (firstStatus first connInfo))
  | .set id value => if value.Valid then Function.update book id ((book id).map value.put) else book
  | .removeConnection id => Function.update book id none
  | .removeAll => fun _ => none
  | .all => book

/-- What the operation must answer. -/
def Expects (book : Book) : Op → Answer → Prop
  | .insert .., .inserted _ => True
  | .set id value, .set res => res =
      if (book id).isNone then .error .notFound
      else if value.Valid then .ok ()
      else .error .badProbability
  | .removeConnection id, .removed res =>
      match book id with
      | none => res = .error .notFound
      | some status => ∃ conn, res = .ok conn ∧ conn.connInfo = status.connInfo
  | .removeAll, .removedAll conns =>
      (conns.map (·.connInfo.id)).Nodup ∧
        ∀ id, id ∈ conns.map (·.connInfo.id) ↔ (book id).isSome
  | .all, .all statuses =>
      (statuses.map (·.connInfo.id)).Nodup ∧
        ∀ id status, book id = some status ↔ status ∈ statuses ∧ status.connInfo.id = id
  | _, _ => False

end Op

/-- The operation failed. -/
def Answer.Failed : Answer → Prop
  | .set (.error _) => True
  | .removed (.error _) => True
  | _ => False

/-- The handles read what the status holds, whatever the rest of the world: the adapters' reads of
the knobs, the two rates, and thresholds that are those of the rates. -/
structure Reads (m : Memory) (status : ConnectionStatus) (h : Handles) : Prop where
  delay : ∀ (env : World) k, (∀ a, env.atomics a k = m a) →
    Duration.duration env h.knobs.delay k = status.delay
  throttleRate : ∀ (env : World) k, (∀ a, env.atomics a k = m a) →
    Rate.rate env h.knobs.throttleRate k = status.throttleRate
  sliceSize : ∀ (env : World) k, (∀ a, env.atomics a k = m a) →
    Size.size env h.knobs.sliceSize k = status.sliceSize
  terminateRate : (h.terminateProbability.load m).probability = status.terminateProbabilityRate
  corruptRate : (h.corruptProbability.load m).probability = status.corruptProbabilityRate
  terminateThreshold : ∀ (env : World) k, (∀ a, env.atomics a k = m a) →
    Probability.threshold env h.knobs.terminateProbabilityRate k =
      thresholdOf status.terminateProbabilityRate
  corruptThreshold : ∀ (env : World) k, (∀ a, env.atomics a k = m a) →
    Probability.threshold env h.knobs.corruptProbabilityRate k =
      thresholdOf status.corruptProbabilityRate

/-- The handles that the adapters of each connection got. -/
abbrev Adapters := ConnId → Option Handles

/-- The handles that were given out after an operation. -/
def given (adapters : Adapters) (s : ApiState) : Op → Adapters
  | .insert connInfo tx first =>
    Function.update adapters connInfo.id (some (s.insert connInfo tx first).1)
  | _ => adapters

/-- The state as a machine, with the plain map and the adapters' handles beside it. -/
def booked : Machine (ApiState × Book × Adapters) Op Answer :=
  machine.watched fun ghost s op => (op.after ghost.1, given ghost.2 s op)

/-- The operation answers what the plain map says, and if it fails the state stays as it is. -/
def Obeys (s : ApiState × Book × Adapters) (op : Op) : Prop :=
  op.Expects s.2.1 (s.1.step op).1 ∧ ((s.1.step op).1.Failed → (s.1.step op).2 = s.1)

/-- The adapters of a live connection read its status. -/
def Agrees (s : ApiState × Book × Adapters) : Prop :=
  ∀ id status, s.2.1 id = some status → ∃ h, s.2.2 id = some h ∧ Reads s.1.memory status h

/-! ## The blocks of atomics -/

/-- The addresses behind the handles. -/
def cells (h : Handles) : List Nat :=
  [h.delay.cell, h.throttleRate.cell, h.sliceSize.cell, h.terminateProbability.rate,
    h.terminateProbability.threshold, h.corruptProbability.rate, h.corruptProbability.threshold]

theorem mem_cells_block {n a : Nat} : a ∈ cells (.block n) ↔ a / 7 = n := by
  simp only [cells, Handles.block, List.mem_cons, List.not_mem_nil, or_false]
  omega

/-- Everything that the handles read is the same in both memories. -/
def Same (h : Handles) (m m' : Memory) : Prop := ∀ a ∈ cells h, m' a = m a

variable {h : Handles} {m m' : Memory} {conn : ConnectionState} {status : ConnectionStatus}

theorem load_same (same : Same h m m') :
    h.delay.load m' = h.delay.load m ∧ h.throttleRate.load m' = h.throttleRate.load m ∧
      h.sliceSize.load m' = h.sliceSize.load m ∧
      h.terminateProbability.load m' = h.terminateProbability.load m ∧
      h.corruptProbability.load m' = h.corruptProbability.load m := by
  simp only [Same, cells, List.forall_mem_cons] at same
  obtain ⟨delay, rate, size, terminate, terminate', corrupt, corrupt', -⟩ := same
  simp only [DynamicDuration.load, DynamicRate.load, DynamicSize.load, ProbabilityHandle.load,
    delay, rate, size, terminate, terminate', corrupt, corrupt', and_self]

theorem status_same (same : Same conn.toHandles m m') : conn.status m' = conn.status m := by
  obtain ⟨delay, rate, size, terminate, corrupt⟩ := load_same same
  simp only [ConnectionState.status, delay, rate, size, terminate, corrupt]

/-- Both thresholds are those of the rates. -/
def Consistent (h : Handles) (m : Memory) : Prop :=
  (h.terminateProbability.load m).Consistent ∧ (h.corruptProbability.load m).Consistent

theorem consistent_same (same : Same h m m') : Consistent h m' ↔ Consistent h m := by
  obtain ⟨-, -, -, terminate, corrupt⟩ := load_same same
  simp only [Consistent, terminate, corrupt]

/-- The handles of an entry read its status. -/
theorem reads_status (consistent : Consistent conn.toHandles m) :
    Reads m (conn.status m) conn.toHandles where
  delay env k holds := by
    show (env.atomics conn.delay.cell k).toNat = _
    rw [holds]
    rfl
  throttleRate env k holds := holds _
  sliceSize env k holds := holds _
  terminateRate := rfl
  corruptRate := rfl
  terminateThreshold env k holds := (holds _).trans consistent.1
  corruptThreshold env k holds := (holds _).trans consistent.2

/-! ## What a store does -/

@[simp] theorem load_store {handle : ProbabilityHandle} {a : DynamicProbability.Atomics}
    (apart : handle.rate ≠ handle.threshold) : handle.load (handle.store a m) = a := by
  unfold ProbabilityHandle.load ProbabilityHandle.store
  rw [Function.update_of_ne apart, Function.update_self, Function.update_self]

theorem store_load (handle : ProbabilityHandle) : handle.store (handle.load m) m = m := by
  unfold ProbabilityHandle.load ProbabilityHandle.store
  rw [Function.update_eq_self, Function.update_eq_self]

theorem store_of_ne {handle : ProbabilityHandle} {a : DynamicProbability.Atomics} {b : Nat}
    (rate : b ≠ handle.rate) (threshold : b ≠ handle.threshold) : handle.store a m b = m b := by
  unfold ProbabilityHandle.store
  rw [Function.update_of_ne threshold, Function.update_of_ne rate]

/-- The store of a setting through the handles of an entry. -/
def Setting.store (value : Setting) (conn : ConnectionState) (m : Memory) :
    Except ApiError Unit × Memory :=
  match value with
  | .delay duration => storing (·.delay.cell) (DynamicDuration.nanos duration) conn m
  | .throttleRate rate => storing (·.throttleRate.cell) rate conn m
  | .sliceSize size => storing (·.sliceSize.cell) size conn m
  | .terminateProbabilityRate rate => setting (·.terminateProbability) rate conn m
  | .corruptProbabilityRate rate => setting (·.corruptProbability) rate conn m

theorem setter_eq (id : ConnId) (value : Setting) : setter id value = withConn id value.store := by
  cases value <;> rfl

theorem setting_valid {handle : ConnectionState → ProbabilityHandle} {rate : F64}
    (valid : ¬rate.Outside) :
    setting handle rate conn m =
      (.ok (), (handle conn).store ⟨rate.bits, thresholdOf rate⟩ m) := by
  unfold setting DynamicProbability.Atomics.set
  rw [validateProbabilityRate_eq, if_neg valid]
  rfl

theorem setting_outside {handle : ConnectionState → ProbabilityHandle} {rate : F64}
    (outside : rate.Outside) : setting handle rate conn m = (.error .badProbability, m) := by
  unfold setting DynamicProbability.Atomics.set
  rw [validateProbabilityRate_eq, if_pos outside]
  show (_, (handle conn).store ((handle conn).load m) m) = _
  rw [store_load]
  rfl

variable {value : Setting}

/-- A store of an invalid setting fails and stores nothing. -/
theorem store_invalid (invalid : ¬value.Valid) :
    value.store conn m = (.error .badProbability, m) := by
  cases value with
  | delay duration => exact absurd trivial invalid
  | throttleRate rate => exact absurd trivial invalid
  | sliceSize size => exact absurd trivial invalid
  | terminateProbabilityRate rate =>
    rw [Setting.store, setting_outside (not_not.mp invalid)]
  | corruptProbabilityRate rate =>
    rw [Setting.store, setting_outside (not_not.mp invalid)]

/-- A store of a valid setting succeeds. -/
theorem store_valid (valid : value.Valid) : (value.store conn m).1 = .ok () := by
  cases value with
  | delay duration => rfl
  | throttleRate rate => rfl
  | sliceSize size => rfl
  | terminateProbabilityRate rate => exact congrArg Prod.fst (setting_valid valid)
  | corruptProbabilityRate rate => exact congrArg Prod.fst (setting_valid valid)

/-- A store writes to the entry's own atomics only. -/
theorem store_elsewhere {a : Nat} (elsewhere : a ∉ cells conn.toHandles) :
    (value.store conn m).2 a = m a := by
  simp only [cells, List.mem_cons, List.not_mem_nil, or_false, not_or] at elsewhere
  obtain ⟨delay, rate, size, terminate, terminate', corrupt, corrupt'⟩ := elsewhere
  by_cases valid : value.Valid
  · cases value with
    | delay duration => exact Function.update_of_ne delay ..
    | throttleRate r => exact Function.update_of_ne rate ..
    | sliceSize s => exact Function.update_of_ne size ..
    | terminateProbabilityRate p =>
      rw [Setting.store, setting_valid valid]
      exact store_of_ne terminate terminate'
    | corruptProbabilityRate p =>
      rw [Setting.store, setting_valid valid]
      exact store_of_ne corrupt corrupt'
  · rw [store_invalid valid]

/-- A valid setting is what the status shows after its store, and nothing else changes there. -/
theorem status_store {n : Nat} (block : conn.toHandles = .block n) (valid : value.Valid)
    (fits : value.Fits) :
    conn.status (value.store conn m).2 = value.put (conn.status m) := by
  obtain ⟨handles, connInfo, tx⟩ := conn
  cases block
  cases value with
  | delay duration =>
    have kept : (UInt64.ofNat duration).toNat = duration := UInt64.toNat_ofNat_of_lt fits
    simp [Setting.store, storing, ConnectionState.status, Setting.put,
      DynamicDuration.load, DynamicRate.load, DynamicSize.load, ProbabilityHandle.load,
      DynamicDuration.nanos, kept]
  | throttleRate rate =>
    simp [Setting.store, storing, ConnectionState.status, Setting.put,
      DynamicDuration.load, DynamicRate.load, DynamicSize.load, ProbabilityHandle.load]
  | sliceSize size =>
    simp [Setting.store, storing, ConnectionState.status, Setting.put,
      DynamicDuration.load, DynamicRate.load, DynamicSize.load, ProbabilityHandle.load]
  | terminateProbabilityRate rate =>
    rw [Setting.store, setting_valid valid]
    simp [ProbabilityHandle.store, ConnectionState.status, Setting.put,
      DynamicDuration.load, DynamicRate.load, DynamicSize.load, ProbabilityHandle.load,
      DynamicProbability.Atomics.probability]
  | corruptProbabilityRate rate =>
    rw [Setting.store, setting_valid valid]
    simp [ProbabilityHandle.store, ConnectionState.status, Setting.put,
      DynamicDuration.load, DynamicRate.load, DynamicSize.load, ProbabilityHandle.load,
      DynamicProbability.Atomics.probability]

/-- A store leaves both thresholds those of the rates. -/
theorem consistent_store {n : Nat} (block : conn.toHandles = .block n)
    (consistent : Consistent conn.toHandles m) :
    Consistent conn.toHandles (value.store conn m).2 := by
  by_cases valid : value.Valid
  · obtain ⟨handles, connInfo, tx⟩ := conn
    cases block
    cases value with
    | delay duration =>
      simpa [Consistent, Setting.store, storing, Handles.block, ProbabilityHandle.load] using consistent
    | throttleRate rate =>
      simpa [Consistent, Setting.store, storing, Handles.block, ProbabilityHandle.load] using consistent
    | sliceSize size =>
      simpa [Consistent, Setting.store, storing, Handles.block, ProbabilityHandle.load] using consistent
    | terminateProbabilityRate rate =>
      rw [Setting.store, setting_valid valid]
      refine ⟨?_, ?_⟩
      · rw [load_store (by simp)]
        rfl
      · simpa [ProbabilityHandle.store, Handles.block, ProbabilityHandle.load] using consistent.2
    | corruptProbabilityRate rate =>
      rw [Setting.store, setting_valid valid]
      refine ⟨?_, ?_⟩
      · simpa [ProbabilityHandle.store, Handles.block, ProbabilityHandle.load] using consistent.1
      · rw [load_store (by simp)]
        rfl
  · rw [store_invalid valid]
    exact consistent

/-! ## The run -/

/-- What a run keeps: an entry is listed once, under its own id and over a block of its own, its
thresholds are those of its rates, the plain map holds its status, and its adapters its handles. -/
structure Sound (s : ApiState × Book × Adapters) : Prop where
  keys : (s.1.connections.map Prod.fst).Nodup
  named : ∀ id conn, s.1.connections.lookup id = some conn → conn.connInfo.id = id
  blocks : ∀ id conn, s.1.connections.lookup id = some conn →
    ∃ n < s.1.next, conn.toHandles = .block n
  apart : ∀ id id' conn conn', s.1.connections.lookup id = some conn →
    s.1.connections.lookup id' = some conn' → conn.toHandles = conn'.toHandles → id = id'
  consistent : ∀ id conn, s.1.connections.lookup id = some conn →
    Consistent conn.toHandles s.1.memory
  book : ∀ id, s.2.1 id = (s.1.connections.lookup id).map (ConnectionState.status s.1.memory)
  adapters : ∀ id conn, s.1.connections.lookup id = some conn → s.2.2 id = some conn.toHandles

/-- Different blocks share no address. -/
theorem block_inj {n n' a : Nat} (mem : a ∈ cells (.block n)) (mem' : a ∈ cells (.block n')) :
    n = n' := by
  rw [← mem_cells_block.mp mem, mem_cells_block.mp mem']

namespace Sound

variable {s : ApiState} {book : Book} {adapters : Adapters} {id : ConnId}

theorem book_none (sound : Sound (s, book, adapters)) (gone : s.connections.lookup id = none) :
    book id = none := by
  have known := sound.book id
  rwa [gone] at known

theorem book_some (sound : Sound (s, book, adapters)) (found : s.connections.lookup id = some conn) :
    book id = some (conn.status s.memory) := by
  have known := sound.book id
  rwa [found] at known

theorem agrees (sound : Sound (s, book, adapters)) : Agrees (s, book, adapters) := by
  intro id status live
  change book id = some status at live
  cases entry : s.connections.lookup id with
  | none =>
    rw [sound.book_none entry] at live
    cases live
  | some conn =>
    rw [sound.book_some entry] at live
    cases live
    exact ⟨conn.toHandles, sound.adapters id conn entry,
      reads_status (sound.consistent id conn entry)⟩

/-- The handles of another entry read the same after a store. -/
theorem same_store (sound : Sound (s, book, adapters)) {id' : ConnId} {conn' : ConnectionState}
    (found : s.connections.lookup id = some conn) (found' : s.connections.lookup id' = some conn')
    (ne : id' ≠ id) : Same conn'.toHandles s.memory (value.store conn s.memory).2 := by
  intro a mem
  apply store_elsewhere
  intro own
  obtain ⟨n, -, block⟩ := sound.blocks id conn found
  obtain ⟨n', -, block'⟩ := sound.blocks id' conn' found'
  have same : n' = n := by
    rw [block'] at mem
    rw [block] at own
    exact block_inj mem own
  apply ne
  apply sound.apart id' id conn' conn found' found
  rw [block, block', same]

/-- A setter keeps the invariant. -/
theorem set (sound : Sound (s, book, adapters)) (fits : value.Fits) :
    Sound ((setter id value s).2, (Op.set id value).after book, adapters) := by
  rw [setter_eq, withConn]
  cases found : s.connections.lookup id with
  | none =>
    have same : (Op.set id value).after book = book := by
      simp only [Op.after]
      rw [sound.book_none found, Option.map_none]
      split
      · rw [← sound.book_none found, Function.update_eq_self]
      · rfl
    rw [same]
    exact sound
  | some conn =>
    dsimp only
    by_cases valid : value.Valid
    · refine { sound with consistent := ?_, book := ?_ }
      · intro id' conn' found'
        by_cases same : id' = id
        · rw [same, found] at found'
          cases found'
          obtain ⟨n, -, block⟩ := sound.blocks id conn found
          exact consistent_store block (sound.consistent id conn found)
        · rw [consistent_same (sound.same_store found found' same)]
          exact sound.consistent id' conn' found'
      · intro id'
        simp only [Op.after, if_pos valid]
        by_cases same : id' = id
        · rw [same, Function.update_self, found, sound.book_some found]
          obtain ⟨n, -, block⟩ := sound.blocks id conn found
          exact congrArg some (status_store block valid fits).symm
        · rw [Function.update_of_ne same]
          cases found' : s.connections.lookup id' with
          | none => exact sound.book_none found'
          | some conn' =>
            rw [sound.book_some found']
            exact congrArg some (status_same (sound.same_store found found' same)).symm
    · simp only [Op.after, if_neg valid, store_invalid valid]
      exact sound

/-- Entries that go away take nothing with them. -/
theorem restrict {connections : List (ConnId × ConnectionState)} {gone : ConnId → Prop}
    [DecidablePred gone] (sound : Sound (s, book, adapters))
    (sub : (connections.map Prod.fst).Sublist (s.connections.map Prod.fst))
    (found : ∀ id, connections.lookup id = if gone id then none else s.connections.lookup id) :
    Sound ({ s with connections }, (fun id => if gone id then none else book id), adapters) := by
  have before : ∀ id conn, connections.lookup id = some conn → s.connections.lookup id = some conn := by
    intro id conn here
    rw [found] at here
    split at here
    · cases here
    · exact here
  refine ⟨sound.keys.sublist sub, ?_, ?_, ?_, ?_, ?_, ?_⟩
  · intro id conn here
    exact sound.named id conn (before id conn here)
  · intro id conn here
    exact sound.blocks id conn (before id conn here)
  · intro id id' conn conn' here here'
    exact sound.apart id id' conn conn' (before id conn here) (before id' conn' here')
  · intro id conn here
    exact sound.consistent id conn (before id conn here)
  · intro id
    show _ = (connections.lookup id).map _
    rw [found]
    dsimp only
    split
    · rfl
    · exact sound.book id
  · intro id conn here
    exact sound.adapters id conn (before id conn here)

/-- A new connection's atomics hold its first values, and nobody else's change. -/
theorem first_elsewhere {first : FirstKnobs} {h : Handles} {m : Memory} {a : Nat}
    (elsewhere : a ∉ cells h) : first.store h m a = m a := by
  simp only [cells, List.mem_cons, List.not_mem_nil, or_false, not_or] at elsewhere
  obtain ⟨delay, rate, size, terminate, terminate', corrupt, corrupt'⟩ := elsewhere
  unfold FirstKnobs.store
  rw [store_of_ne corrupt corrupt', store_of_ne terminate terminate', Function.update_of_ne size,
    Function.update_of_ne rate, Function.update_of_ne delay]

theorem first_status {first : FirstKnobs} {n tx : Nat} {connInfo : ConnectionInfo} {m : Memory} :
    ConnectionState.status (first.store (.block n) m) ⟨.block n, connInfo, tx⟩ =
      firstStatus first connInfo := by
  simp [FirstKnobs.store, ProbabilityHandle.store, ConnectionState.status, firstStatus,
    Handles.block, DynamicDuration.load, DynamicRate.load, DynamicSize.load, ProbabilityHandle.load,
    DynamicProbability.Atomics.probability]

theorem first_consistent {first : FirstKnobs} {n : Nat} {m : Memory} :
    Consistent (.block n) (first.store (.block n) m) := by
  simp [FirstKnobs.store, ProbabilityHandle.store, Consistent, Handles.block,
    ProbabilityHandle.load, DynamicProbability.Atomics.Consistent,
    DynamicProbability.Atomics.probability, DynamicProbability.Atomics.threshold]

/-- The next block is nobody's yet. -/
theorem block_fresh (sound : Sound (s, book, adapters)) (found : s.connections.lookup id = some conn)
    {a : Nat} (mem : a ∈ cells conn.toHandles) : a ∉ cells (.block s.next) := by
  intro new
  obtain ⟨n, old, block⟩ := sound.blocks id conn found
  rw [block] at mem
  exact (Nat.ne_of_lt old) (block_inj mem new)

/-- An entry after a connection was listed is its own, or one under another id. -/
theorem entry_insert {connInfo : ConnectionInfo} {tx : Nat} {first : FirstKnobs}
    (found : (s.insert connInfo tx first).2.connections.lookup id = some conn) :
    (id = connInfo.id ∧ conn = ⟨.block s.next, connInfo, tx⟩) ∨
      (id ≠ connInfo.id ∧ s.connections.lookup id = some conn) := by
  by_cases same : id = connInfo.id
  · left
    have here := found
    rw [same] at here
    exact ⟨same, Option.some.inj (here.symm.trans Keyed.lookup_put_self)⟩
  · right
    exact ⟨same, (Keyed.lookup_put_of_ne same).symm.trans found⟩

/-- The first values of a new connection's knobs overwrite nobody's. -/
theorem same_insert (sound : Sound (s, book, adapters)) {first : FirstKnobs}
    (found : s.connections.lookup id = some conn) :
    Same conn.toHandles s.memory (first.store (.block s.next) s.memory) := by
  intro a mem
  apply first_elsewhere
  exact sound.block_fresh found mem

/-- Nobody's handles are those of the new connection. -/
theorem ne_block_next (sound : Sound (s, book, adapters)) (found : s.connections.lookup id = some conn) :
    conn.toHandles ≠ .block s.next := by
  intro same
  have zero : 7 * s.next ∈ cells (.block s.next) := List.mem_cons_self
  apply sound.block_fresh found _ zero
  rw [same]
  exact zero

/-- The entries of two ids have different handles, the new one's too. -/
theorem apart_insert (sound : Sound (s, book, adapters)) {connInfo : ConnectionInfo} {tx : Nat}
    {first : FirstKnobs} {id' : ConnId} {conn' : ConnectionState}
    (found : (s.insert connInfo tx first).2.connections.lookup id = some conn)
    (found' : (s.insert connInfo tx first).2.connections.lookup id' = some conn')
    (same : conn.toHandles = conn'.toHandles) : id = id' := by
  rcases entry_insert found with ⟨rfl, rfl⟩ | ⟨-, found⟩
  · rcases entry_insert found' with ⟨rfl, rfl⟩ | ⟨-, found'⟩
    · rfl
    · exact absurd same.symm (sound.ne_block_next found')
  · rcases entry_insert found' with ⟨rfl, rfl⟩ | ⟨-, found'⟩
    · exact absurd same (sound.ne_block_next found)
    · exact sound.apart id id' conn conn' found found' same

/-- The plain map with the new connection's status. -/
theorem booked_insert (sound : Sound (s, book, adapters)) (connInfo : ConnectionInfo) (tx : Nat)
    (first : FirstKnobs) (id : ConnId) :
    (Op.insert connInfo tx first).after book id =
      ((s.insert connInfo tx first).2.connections.lookup id).map
        (·.status (s.insert connInfo tx first).2.memory) := by
  show Function.update book connInfo.id _ id =
    ((Keyed.put connInfo.id _ s.connections).lookup id).map _
  by_cases same : id = connInfo.id
  · rw [same, Function.update_self, Keyed.lookup_put_self]
    exact congrArg some first_status.symm
  · rw [Function.update_of_ne same, Keyed.lookup_put_of_ne same]
    cases found : s.connections.lookup id with
    | none => exact sound.book_none found
    | some conn =>
      rw [sound.book_some found]
      exact congrArg some (status_same (sound.same_insert found)).symm

/-- A new connection keeps the invariant. -/
theorem insert (sound : Sound (s, book, adapters)) (connInfo : ConnectionInfo) (tx : Nat)
    (first : FirstKnobs) :
    Sound ((s.insert connInfo tx first).2, (Op.insert connInfo tx first).after book,
      given adapters s (.insert connInfo tx first)) := by
  refine ⟨Keyed.nodup_put sound.keys, ?named, ?blocks, ?apart, ?consistent, ?booked, ?adapters⟩
  case named =>
    intro id conn found
    rcases entry_insert found with ⟨rfl, rfl⟩ | ⟨-, found⟩
    · rfl
    · exact sound.named id conn found
  case blocks =>
    intro id conn found
    rcases entry_insert found with ⟨rfl, rfl⟩ | ⟨-, found⟩
    · exact ⟨s.next, Nat.lt_succ_self _, rfl⟩
    · obtain ⟨n, old, block⟩ := sound.blocks id conn found
      exact ⟨n, Nat.lt_succ_of_lt old, block⟩
  case apart => exact fun id id' conn conn' found found' => sound.apart_insert found found'
  case consistent =>
    intro id conn found
    rcases entry_insert found with ⟨rfl, rfl⟩ | ⟨-, found⟩
    · exact first_consistent
    · exact (consistent_same (sound.same_insert found)).mpr (sound.consistent id conn found)
  case booked => exact sound.booked_insert connInfo tx first
  case adapters =>
    intro id conn found
    show Function.update adapters connInfo.id _ id = _
    rcases entry_insert found with ⟨rfl, rfl⟩ | ⟨other, found⟩
    · rw [Function.update_self]
      rfl
    · rw [Function.update_of_ne other]
      exact sound.adapters id conn found

/-- A removal keeps the invariant. -/
theorem remove (sound : Sound (s, book, adapters)) (id : ConnId) :
    Sound ((s.removeConnection id).2, (Op.removeConnection id).after book, adapters) := by
  have after : (Op.removeConnection id).after book =
      fun id' => if id' = id then none else book id' := by
    funext id'
    exact Function.update_apply ..
  rw [after, removeConnection]
  cases found : s.connections.lookup id with
  | none =>
    have same : (fun id' => if id' = id then none else book id') = book := by
      funext id'
      split
      · next eq => rw [eq, sound.book_none found]
      · rfl
    rw [same]
    exact sound
  | some conn =>
    refine @restrict _ _ _ _ (fun id' => id' = id) _ sound (List.Sublist.map _ List.filter_sublist) ?_
    intro id'
    split
    · next eq => rw [eq, Keyed.lookup_without_self]
    · next ne => exact Keyed.lookup_without_of_ne ne

/-- The loop of `remove_all` over ids that are listed: each entry is taken out, in this order. -/
theorem removeEach_spec {ids : List ConnId} (distinct : ids.Nodup)
    (named : ∀ id conn, s.connections.lookup id = some conn → conn.connInfo.id = id)
    (listed : ∀ id ∈ ids, (s.connections.lookup id).isSome) :
    (removeEach ids s).1.map (·.connInfo.id) = ids ∧
      (removeEach ids s).2 = { s with
        connections := s.connections.filter fun entry => !ids.contains entry.1 } := by
  induction ids generalizing s with
  | nil => exact ⟨rfl, by simp [removeEach]⟩
  | cons id ids ih =>
    obtain ⟨other, distinct⟩ := List.nodup_cons.mp distinct
    obtain ⟨conn, found⟩ := Option.isSome_iff_exists.mp (listed id List.mem_cons_self)
    have taken : s.removeConnection id =
        (.ok conn, { s with connections := Keyed.without id s.connections }) := by
      rw [removeConnection, found]
    have named' : ∀ id' conn', (Keyed.without id s.connections).lookup id' = some conn' →
        conn'.connInfo.id = id' := by
      intro id' conn' found'
      have mem := (List.mem_filter.mp (Keyed.mem_of_lookup found')).1
      by_cases same : id' = id
      · rw [same, Keyed.lookup_without_self] at found'
        cases found'
      · exact named id' conn' ((Keyed.lookup_without_of_ne same).symm.trans found')
    have listed' : ∀ id' ∈ ids, ((Keyed.without id s.connections).lookup id').isSome := by
      intro id' mem
      have ne : id' ≠ id := fun same => other (same ▸ mem)
      rw [Keyed.lookup_without_of_ne ne]
      exact listed id' (List.mem_cons_of_mem _ mem)
    obtain ⟨ids', state⟩ := @ih { s with connections := Keyed.without id s.connections } distinct
      named' listed'
    simp only [removeEach, taken, List.map_cons, ids', state]
    refine ⟨by rw [named id conn found], ?_⟩
    simp only [Keyed.without, List.filter_filter, List.contains_cons, Bool.not_or]
    congr 1
    apply List.filter_congr
    intro entry _
    rw [Bool.and_comm]
    rfl

/-- `remove_all` takes every live connection out, each once. -/
theorem removeAll_spec (sound : Sound (s, book, adapters)) :
    s.removeAll.1.map (·.connInfo.id) = s.connections.map Prod.fst ∧
      s.removeAll.2 = { s with connections := [] } := by
  have listed : ∀ id ∈ s.connections.map Prod.fst, (s.connections.lookup id).isSome := by
    intro id mem
    obtain ⟨⟨id, conn⟩, entry, rfl⟩ := List.mem_map.mp mem
    have found : s.connections.lookup id = some conn := (Keyed.mem_iff_lookup sound.keys).mp entry
    rw [found]
    rfl
  obtain ⟨ids, state⟩ := removeEach_spec sound.keys sound.named listed
  refine ⟨ids, state.trans ?_⟩
  congr 1
  rw [List.filter_eq_nil_iff]
  intro entry mem
  simp only [Bool.not_eq_true', Bool.not_eq_false, List.contains_iff_mem]
  exact List.mem_map_of_mem mem

/-- Removing all keeps the invariant. -/
theorem removeAll (sound : Sound (s, book, adapters)) :
    Sound (s.removeAll.2, Op.removeAll.after book, adapters) := by
  rw [sound.removeAll_spec.2]
  refine @restrict _ _ _ [] (fun _ => True) _ sound (List.nil_sublist _) ?_
  intro id
  exact (if_pos trivial).symm

/-- The live ids are those listed. -/
theorem mem_keys (sound : Sound (s, book, adapters)) :
    id ∈ s.connections.map Prod.fst ↔ (book id).isSome := by
  constructor
  · intro mem
    obtain ⟨⟨id, conn⟩, entry, rfl⟩ := List.mem_map.mp mem
    rw [sound.book_some ((Keyed.mem_iff_lookup sound.keys).mp entry)]
    rfl
  · intro live
    cases found : s.connections.lookup id with
    | none =>
      rw [sound.book_none found] at live
      cases live
    | some conn => exact List.mem_map_of_mem (Keyed.mem_of_lookup found)

/-- `all` lists the status of each live connection, once. -/
theorem all_spec (sound : Sound (s, book, adapters)) :
    (s.all.map (·.connInfo.id)).Nodup ∧
      ∀ id status, book id = some status ↔ status ∈ s.all ∧ status.connInfo.id = id := by
  have keys : s.all.map (·.connInfo.id) = s.connections.map Prod.fst := by
    rw [all, List.map_map]
    apply List.map_congr_left
    intro entry mem
    exact sound.named _ _ ((Keyed.mem_iff_lookup sound.keys).mp mem)
  refine ⟨keys ▸ sound.keys, ?_⟩
  intro id status
  constructor
  · intro live
    cases found : s.connections.lookup id with
    | none =>
      rw [sound.book_none found] at live
      cases live
    | some conn =>
      rw [sound.book_some found] at live
      cases live
      exact ⟨List.mem_map.mpr ⟨_, Keyed.mem_of_lookup found, rfl⟩, sound.named id conn found⟩
  · rintro ⟨mem, rfl⟩
    obtain ⟨⟨id, conn⟩, entry, rfl⟩ := List.mem_map.mp mem
    have found := (Keyed.mem_iff_lookup sound.keys).mp entry
    have own : (conn.status s.memory).connInfo.id = id := sound.named id conn found
    show book (conn.status s.memory).connInfo.id = _
    rw [own]
    exact sound.book_some found

/-- Every operation answers as the plain map says, and changes nothing when it fails. -/
theorem obeys (sound : Sound (s, book, adapters)) (op : Op) : Obeys (s, book, adapters) op := by
  cases op with
  | insert connInfo tx first => exact ⟨trivial, fun failed => failed.elim⟩
  | set id value =>
    show ((setter id value s).1 = if (book id).isNone then _ else _) ∧
      ((Answer.set (setter id value s).1).Failed → (setter id value s).2 = s)
    rw [setter_eq, withConn]
    cases found : s.connections.lookup id with
    | none =>
      rw [sound.book_none found]
      exact ⟨rfl, fun _ => rfl⟩
    | some conn =>
      rw [sound.book_some found]
      dsimp only
      by_cases valid : value.Valid
      · refine ⟨?_, fun failed => ?_⟩
        · rw [store_valid valid, if_pos valid]
          rfl
        · rw [store_valid valid] at failed
          exact failed.elim
      · rw [store_invalid valid, if_neg valid]
        exact ⟨rfl, fun _ => rfl⟩
  | removeConnection id =>
    show (match book id with | none => _ | some status => _) ∧
      ((Answer.removed (s.removeConnection id).1).Failed → (s.removeConnection id).2 = s)
    rw [removeConnection]
    cases found : s.connections.lookup id with
    | none =>
      rw [sound.book_none found]
      exact ⟨rfl, fun _ => rfl⟩
    | some conn =>
      rw [sound.book_some found]
      exact ⟨⟨conn, rfl, rfl⟩, fun failed => failed.elim⟩
  | removeAll =>
    refine ⟨?_, fun failed => failed.elim⟩
    show (s.removeAll.1.map (·.connInfo.id)).Nodup ∧
      ∀ id, id ∈ s.removeAll.1.map (·.connInfo.id) ↔ (book id).isSome
    rw [sound.removeAll_spec.1]
    exact ⟨sound.keys, fun id => sound.mem_keys⟩
  | all => exact ⟨sound.all_spec, fun failed => failed.elim⟩

/-- Every operation keeps the invariant. -/
theorem step (sound : Sound (s, book, adapters)) {op : Op} (fits : op.Fits) :
    Sound (booked.step (s, book, adapters) op).2 := by
  cases op with
  | insert connInfo tx first => exact sound.insert connInfo tx first
  | set id value => exact sound.set fits
  | removeConnection id => exact sound.remove id
  | removeAll => exact sound.removeAll
  | all => exact sound

end Sound

/-- **The state refines a plain map of settings.** -/
theorem refines_book {ops : List Op} (fits : ∀ op ∈ ops, op.Fits) :
    booked.Allowed (fun _ => Obeys) (empty, fun _ => none, fun _ => none) ops ∧
      booked.Throughout (fun _ => Agrees) (empty, fun _ => none, fun _ => none) ops := by
  have start : Sound (empty, fun _ => none, fun _ => none) :=
    ⟨List.nodup_nil, nofun, nofun, nofun, nofun, fun _ => rfl, nofun⟩
  have allowed : booked.Allowed (fun _ _ op => op.Fits) (empty, fun _ => none, fun _ => none) ops :=
    Machine.allowedFrom_of_mem fits
  constructor
  · exact Machine.AllowedFrom.imp (P := fun _ => Sound) (fun _ _ _ sound fits => sound.step fits)
      (fun _ _ op sound _ => sound.obeys op) start allowed
  · exact Machine.AllowedFrom.imp (P := fun _ => Sound) (fun _ _ _ sound fits => sound.step fits)
      (fun _ _ _ sound fits => (sound.step fits).agrees) start allowed

/-- A connection is listed without faults and slowed down; a probability that is not a number and an
id that is not listed are refused. -/
def slowed : List Op :=
  [.insert ⟨"a", "127.0.0.1:50000", "127.0.0.1:8181"⟩ 0
      ⟨0, 0, 0, ⟨.zero, by decide⟩, ⟨.zero, by decide⟩⟩,
    .set "a" (.delay 5000000), .set "a" (.corruptProbabilityRate ⟨0x7FF8000000000000⟩),
    .set "b" (.throttleRate 1), .all]

theorem refines_book_slowed :
    booked.Allowed (fun _ => Obeys) (empty, fun _ => none, fun _ => none) slowed ∧
      booked.Throughout (fun _ => Agrees) (empty, fun _ => none, fun _ => none) slowed := by
  apply refines_book
  simp [slowed, Op.Fits, Setting.Fits]

end ApiState

end Trixter
