/-
**Decoding arbitrary logs.**

A log is what a node answers: any topics, any bytes. A parser is total on a log if it returns the event or an
error, and so neither leaves the data nor overflows an index.

* `safe_usize`, `safe_range` and so on: what each reading needs, and what it leaves to be shown;
* `safe_mapM`: a loop whose turns read further and further;
* `event_decoders_total_iff`: **when the four parsers are total, and a validator set with as many powers as
  addresses**;
* `valset_agrees`, `deployed_agrees`: with indices in ℕ the parsers return the same.
-/

import NabBridge.Orchestrator.EventIndices
import NabBridge.Proof.OracleRounds

namespace NabBridge

open Orchestrator

/-! ### Readings -/

section Readings

variable {α β : Type} {fine : Prop}

/-- No panic; and if there is a value, something holds. -/
def Safe (fine : Prop) (outcome : EventResult α) : Prop := outcome.Meets (fun _ => fine) fun _ => False

theorem safe_ok {value : α} : Safe fine (.ok value : EventResult α) ↔ fine := Iff.rfl

theorem safe_pure {value : α} : Safe fine (pure value : EventResult α) ↔ fine := Iff.rfl

theorem safe_bind_pure {outcome : EventResult α} {result : α → β} :
    Safe fine (outcome >>= fun value => pure (result value)) ↔ Safe fine outcome := by
  cases outcome <;> rfl

theorem exists_panic_of_not_safe {outcome : EventResult α} (unsafely : ¬ Safe True outcome) :
    ∃ reason, outcome = .panic reason := by
  cases outcome with
  | ok value => exact absurd trivial unsafely
  | error reason => exact absurd trivial unsafely
  | panic reason => exact ⟨reason, rfl⟩

/-- Data that reaches an index, which is one a `usize` can be. -/
def Reaches (data : Bytes) (stop : Nat) : Prop := stop ≤ data.length ∧ stop < 2 ^ 64

instance (data : Bytes) (stop : Nat) : Decidable (Reaches data stop) := by
  unfold Reaches
  infer_instance

theorem Reaches.mono {data : Bytes} {stop stop' : Nat} (reaches : Reaches data stop) (below : stop' ≤ stop) :
    Reaches data stop' := ⟨below.trans reaches.1, below.trans_lt reaches.2⟩

/-- The number in a word of the data. -/
def wordAt (data : Bytes) (start : Nat) : Nat := beValue ((data.drop start).take 32)

theorem safe_usize {value : Nat} {next : Nat → EventResult α} :
    Safe fine (usize value >>= next) ↔ value < 2 ^ 64 ∧ Safe fine (next value) := by
  unfold usize
  split_ifs with fits
  · exact (and_iff_right fits).symm
  · exact iff_of_false id fun both => fits both.1

theorem usize_of_lt {value : Nat} (fits : value < 2 ^ 64) : usize value = .ok value := if_pos fits

theorem range_of_le {data : Bytes} {start stop : Nat} (ordered : start ≤ stop) (inside : stop ≤ data.length) :
    range data start stop = .ok ((data.drop start).take (stop - start)) :=
  range_eq_ok (if_pos ⟨ordered, inside⟩)

theorem safe_range {data : Bytes} {start stop : Nat} {next : Bytes → EventResult α} (ordered : start ≤ stop) :
    Safe fine (range data start stop >>= next) ↔
      stop ≤ data.length ∧ Safe fine (next ((data.drop start).take (stop - start))) := by
  unfold range slice?
  split_ifs with inside
  · exact (and_iff_right inside.2).symm
  · have outside : ¬ stop ≤ data.length := fun fits => inside ⟨ordered, fits⟩
    exact iff_of_false id fun both => outside both.1

theorem safe_uint256At {data : Bytes} {start : Nat} {next : Nat → EventResult α} :
    Safe fine (uint256At data start >>= next) ↔
      start + 32 ≤ data.length ∧ Safe fine (next (wordAt data start)) := by
  rw [uint256At, bind_assoc, safe_range (Nat.le_add_right _ _), Nat.add_sub_cancel_left]
  rfl

theorem safe_wordUsize {data : Bytes} {start : Nat} {next : Nat × Nat → EventResult α} :
    Safe fine (wordUsize data start >>= next) ↔
      Reaches data (start + 32) ∧ Safe fine (next (wordAt data start, start + 32)) := by
  rw [wordUsize, bind_assoc, safe_usize, bind_assoc, safe_range (Nat.le_add_right _ _),
    Nat.add_sub_cancel_left, Reaches, and_left_comm, and_assoc]
  rfl

theorem safe_atMost {bound value : Nat} {reason : EventError} {next : Nat → EventResult α} :
    Safe fine (atMost bound reason value >>= next) ↔ bound < value ∨ Safe fine (next value) := by
  unfold atMost
  split_ifs with above
  · exact iff_of_true trivial (Or.inl above)
  · exact (or_iff_right above).symm

theorem safe_ethAddressFromSlice {reason : EventError} {bytes : Bytes} {next : EthAddress → EventResult α} :
    Safe fine (ethAddressFromSlice reason bytes >>= next) ↔
      (bytes.length = 20 → Safe fine (next (Fin.ofNat (2 ^ 160) (beValue bytes)))) := by
  unfold ethAddressFromSlice
  split_ifs with long
  · exact ⟨fun safe _ => safe, fun safe => safe long⟩
  · exact iff_of_true trivial fun long' => absurd long' long

theorem safe_addressOfTopic {topic : Bytes} {next : EthAddress → EventResult α} :
    Safe fine (addressOfTopic topic >>= next) ↔ 32 ≤ topic.length ∧
      Safe fine (next (Fin.ofNat (2 ^ 160) (beValue ((topic.drop 12).take 20)))) := by
  rw [addressOfTopic, bind_assoc, safe_range (by decide)]
  refine and_congr_right fun long => ?_
  rw [safe_ethAddressFromSlice]
  refine forall_prop_of_true ?_
  rw [List.length_take, List.length_drop]
  omega

theorem safe_height {log : Log} {next : Nat → EventResult α} :
    Safe fine (log.height >>= next) ↔ ∀ number, log.blockNumber = some number → Safe fine (next number) := by
  unfold Log.height
  cases log.blockNumber with
  | none => exact iff_of_true trivial fun _ missing => nomatch missing
  | some number => exact ⟨fun safe _ same => Option.some.inj same ▸ safe, fun safe => safe number rfl⟩

theorem safe_stringFromUtf8 {text : Bytes} {next : Bytes → EventResult α} :
    Safe fine (stringFromUtf8 text >>= next) ↔ isUtf8 text = false ∨ Safe fine (next text) := by
  unfold stringFromUtf8
  split_ifs with valid
  · exact (or_iff_right fun invalid => Bool.false_ne_true (invalid.symm.trans valid)).symm
  · exact iff_of_true trivial (Or.inl (Bool.eq_false_iff.mpr valid))

/-- **A loop whose turns read further and further**: it ends in a turn that is refused, or reads all. -/
theorem safe_mapM {f : α → EventResult β} {reaches refused : α → Prop} {items : List α}
    (each : ∀ item ∈ items, (reaches item ∧ ¬ refused item ∧ ∃ value, f item = .ok value) ∨
      (reaches item ∧ refused item ∧ ∃ reason, f item = .error reason) ∨
      ¬ reaches item ∧ ∃ reason, f item = .panic reason)
    (further : items.Pairwise fun first second => reaches second → reaches first) :
    Safe fine (items.mapM f) ↔
      (∃ item ∈ items, reaches item ∧ refused item) ∨ (∀ item ∈ items, reaches item) ∧ fine := by
  induction items with
  | nil => simp [Safe]
  | cons item rest ih =>
      obtain ⟨before, further⟩ := List.pairwise_cons.mp further
      have later := ih (fun other member => each other (List.mem_cons_of_mem _ member)) further
      rw [List.mapM_cons, List.exists_mem_cons_iff, List.forall_mem_cons]
      rcases each item List.mem_cons_self with ⟨here, accepted, value, read⟩ |
        ⟨here, refused, reason, read⟩ | ⟨out, reason, read⟩
      · rw [read, Outcome.ok_bind, safe_bind_pure, later]
        simp [here, accepted]
      · rw [read]
        exact iff_of_true trivial (Or.inl (Or.inl ⟨here, refused⟩))
      · rw [read]
        refine iff_of_false id ?_
        rintro ((⟨here, _⟩ | ⟨other, member, there, _⟩) | ⟨⟨here, _⟩, _⟩)
        · exact out here
        · exact out (before other member there)
        · exact out here

end Readings

/-! ### The data of a validator set update -/

section Valset

variable (data : Bytes)

/-- The length of the array of addresses. -/
def addressCount : Nat := wordAt data 160

/-- The length of the array of powers, which is behind the addresses. -/
def powerCount : Nat := wordAt data ((6 + addressCount data) * 32)

/-- The power of a member, which is behind both lengths and the addresses. -/
def powerWord (i : Nat) : Nat := wordAt data (i * 32 + ((6 + addressCount data) * 32 + 32))

/-- The two lengths are in the data and differ. -/
def CountsDiffer : Prop := (7 + addressCount data) * 32 ≤ data.length ∧ powerCount data ≠ addressCount data

/-- The data of a validator set update is refused or decoded: each word is there unless one that is read
before is refused, and the lengths agree where all is read. -/
def ValsetRegular : Prop :=
  Reaches data 32 ∧ (u64Max < wordAt data 0 ∨
    Reaches data 192 ∧ (u64Max < addressCount data ∨
      Reaches data ((7 + addressCount data) * 32) ∧ (u64Max < powerCount data ∨
        (∃ i < addressCount data,
          Reaches data ((8 + addressCount data + i) * 32) ∧ u64Max < powerWord data i) ∨
        Reaches data ((7 + 2 * addressCount data) * 32) ∧ powerCount data = addressCount data)))

instance : Decidable (ValsetRegular data) := by
  unfold ValsetRegular
  infer_instance

variable {data}

/-- A turn of the loop over the members. -/
def memberAt (data : Bytes) (i : Nat) : EventResult ValsetMember :=
  decodeMemberUsize data ((6 + addressCount data) * 32 + 32) (5 * 32 + 32) i

/-- **One turn of the loop** reads up to the end of a power, and refuses a power above `u64::MAX`. -/
theorem memberAt_cases (i : Nat) :
    (Reaches data ((8 + addressCount data + i) * 32) ∧ ¬ u64Max < powerWord data i ∧
        ∃ member, memberAt data i = .ok member) ∨
      (Reaches data ((8 + addressCount data + i) * 32) ∧ u64Max < powerWord data i ∧
        ∃ reason, memberAt data i = .error reason) ∨
      ¬ Reaches data ((8 + addressCount data + i) * 32) ∧ ∃ reason, memberAt data i = .panic reason := by
  unfold memberAt powerWord
  generalize addressCount data = count
  by_cases reaches : Reaches data ((8 + count + i) * 32)
  · obtain ⟨inside, small⟩ := reaches
    have long : ((data.drop (i * 32 + (5 * 32 + 32) + 12)).take
        (i * 32 + (5 * 32 + 32) + 32 - (i * 32 + (5 * 32 + 32) + 12))).length = 20 := by
      rw [List.length_take, List.length_drop]
      omega
    have word : i * 32 + ((6 + count) * 32 + 32) + 32 - (i * 32 + ((6 + count) * 32 + 32)) = 32 :=
      Nat.add_sub_cancel_left _ _
    simp (disch := omega) only [decodeMemberUsize, usize_of_lt, range_of_le, Outcome.ok_bind,
      ethAddressFromSlice, if_pos long, word]
    unfold atMost wordAt
    split_ifs with above
    · exact Or.inr (Or.inl ⟨⟨inside, small⟩, above, _, rfl⟩)
    · exact Or.inl ⟨⟨inside, small⟩, above, _, rfl⟩
  · refine Or.inr (Or.inr ⟨reaches, exists_panic_of_not_safe fun safe => reaches ?_⟩)
    have order : i * 32 + (5 * 32 + 32) + 12 ≤ i * 32 + (5 * 32 + 32) + 32 := by omega
    simp only [decodeMemberUsize, safe_usize, safe_range (Nat.le_add_right _ _), safe_range order] at safe
    obtain ⟨-, -, small, -, -, -, inside, -⟩ := safe
    exact ⟨by omega, by omega⟩

/-- **The loop over the members.** -/
theorem members_safe_iff {fine : Prop} :
    Safe fine ((List.range (addressCount data)).mapM (memberAt data)) ↔
      (∃ i < addressCount data,
          Reaches data ((8 + addressCount data + i) * 32) ∧ u64Max < powerWord data i) ∨
        (addressCount data = 0 ∨ Reaches data ((7 + 2 * addressCount data) * 32)) ∧ fine := by
  have further : (List.range (addressCount data)).Pairwise fun first second =>
      Reaches data ((8 + addressCount data + second) * 32) →
        Reaches data ((8 + addressCount data + first) * 32) :=
    List.pairwise_lt_range.imp fun below reaches => reaches.mono (by omega)
  rw [safe_mapM (fun i _ => memberAt_cases i) further]
  simp only [List.mem_range]
  refine or_congr Iff.rfl (and_congr_left fun _ => ?_)
  constructor
  · intro all
    refine (Nat.eq_zero_or_pos _).imp_right fun some => ?_
    exact (all (addressCount data - 1) (Nat.sub_lt some Nat.one_pos)).mono (by omega)
  · rintro (none | last) i below
    · omega
    · exact last.mono (by omega)

theorem decodeUsize_safe_iff :
    Safe (¬ CountsDiffer data) (ValsetDataBytes.decodeUsize data) ↔ ValsetRegular data := by
  unfold ValsetDataBytes.decodeUsize
  simp only [safe_uint256At, safe_atMost, safe_usize, safe_wordUsize, safe_ethAddressFromSlice,
    safe_range (show 2 * 32 ≤ 2 * 32 + 32 by decide), ne_eq, not_true, if_false]
  change _ ∧ (u64Max < wordAt data 0 ∨ _ ∧ _ ∧ (_ → _ ∧ (u64Max < addressCount data ∨
    6 + addressCount data < 2 ^ 64 ∧ (6 + addressCount data) * 32 < 2 ^ 64 ∧
      Reaches data ((6 + addressCount data) * 32 + 32) ∧ (u64Max < powerCount data ∨
        Safe _ (List.mapM (memberAt data) (List.range (addressCount data)) >>= _))))) ↔ _
  rw [safe_bind_pure, members_safe_iff, List.length_drop, List.length_take, List.length_drop, ValsetRegular,
    CountsDiffer]
  generalize (∃ i < addressCount data, Reaches data ((8 + addressCount data + i) * 32) ∧
    u64Max < powerWord data i) = refused
  generalize addressCount data = count, powerCount data = powers
  unfold Reaches
  grind

end Valset

/-! ### The data of a deployment -/

section Deployment

variable {α : Type} {fine : Prop} {data : Bytes}

/-- The text of a string whose length word is at an index, and the index of its end. -/
def textAt (data : Bytes) (index : Nat) : Bytes :=
  (data.drop (index + 32)).take (wordAt data index)

def textEnd (data : Bytes) (index : Nat) : Nat := index + 32 + wordAt data index

/-- A string is refused or read, and then the rest. -/
def StringRegular (data : Bytes) (index : Nat) (rest : Prop) : Prop :=
  Reaches data (index + 32) ∧ (u32Max < wordAt data index ∨
    Reaches data (textEnd data index) ∧ (isUtf8 (textAt data index) = false ∨ rest))

instance (data : Bytes) (index : Nat) (rest : Prop) [Decidable rest] :
    Decidable (StringRegular data index rest) := by
  unfold StringRegular
  infer_instance

theorem safe_stringUsize {reason : EventError} {index : Nat} {next : Bytes × Nat → EventResult α} :
    Safe fine (stringUsize reason data index >>= next) ↔
      StringRegular data index (Safe fine (next (textAt data index, textEnd data index))) := by
  simp only [stringUsize, bind_assoc, safe_wordUsize, safe_atMost, safe_usize,
    safe_range (Nat.le_add_right _ _), safe_stringFromUtf8, Nat.add_sub_cancel_left]
  unfold StringRegular
  refine and_congr_right fun _ => or_congr Iff.rfl ?_
  rw [Reaches, and_comm (b := _ < 2 ^ 64), and_assoc]
  rfl

/-- The index behind a text is rounded up without an overflow, since a word is read there. -/
theorem safe_nextString {reason : EventError} {index : Nat} {next : Bytes × Nat → EventResult α} :
    Safe fine (nextWordUsize index >>= fun start => stringUsize reason data start >>= next) ↔
      StringRegular data (nextWord index)
        (Safe fine (next (textAt data (nextWord index), textEnd data (nextWord index)))) := by
  rw [nextWordUsize, bind_assoc, safe_usize, safe_usize, safe_stringUsize]
  constructor
  · exact fun both => both.2.2
  · intro regular
    have small := regular.1.2
    unfold nextWord at small
    exact ⟨by omega, by omega, regular⟩

end Deployment

/-! ### The logs -/

section Logs

/-- A log that is refused before its data is read, or whose data is refused or decoded. -/
def ValsetLogRegular (log : Log) : Prop :=
  ∀ valsetNonce, log.topics[1]? = some valsetNonce → beValue valsetNonce ≤ u64Max →
    ∀ number, log.blockNumber = some number → ValsetRegular log.data

/-- The topic with the token is a word. -/
def BatchLogRegular (log : Log) : Prop :=
  ∀ batchNonce, log.topics[1]? = some batchNonce → ∀ erc20, log.topics[2]? = some erc20 → 32 ≤ erc20.length

/-- The topics are words, and the data has one. -/
def DepositLogRegular (log : Log) : Prop :=
  ∀ erc20, log.topics[1]? = some erc20 → ∀ sender, log.topics[2]? = some sender →
    ∀ destination, log.topics[3]? = some destination →
      32 ≤ erc20.length ∧ 32 ≤ sender.length ∧ 32 ≤ destination.length ∧ 32 ≤ log.data.length

/-- The topic is a word, and the data is refused or decoded: each word and text is there unless one that is
read before is refused. -/
def DeploymentLogRegular (log : Log) : Prop :=
  ∀ tokenContract, log.topics[1]? = some tokenContract →
    32 ≤ tokenContract.length ∧ 128 ≤ log.data.length ∧ (255 < wordAt log.data 96 ∨
      160 ≤ log.data.length ∧ (u64Max < wordAt log.data 128 ∨
        StringRegular log.data 160
          (StringRegular log.data (nextWord (textEnd log.data 160))
            (StringRegular log.data
              (nextWord (textEnd log.data (nextWord (textEnd log.data 160)))) True))))

variable {log : Log}

theorem valset_safe_iff :
    Safe (¬ CountsDiffer log.data) (ValsetUpdatedEvent.fromLogUsize log) ↔ ValsetLogRegular log := by
  unfold ValsetUpdatedEvent.fromLogUsize ValsetLogRegular
  cases log.topics[1]? with
  | none => exact iff_of_true trivial fun _ missing => nomatch missing
  | some valsetNonce =>
      simp only [safe_atMost, safe_height, safe_bind_pure, decodeUsize_safe_iff, Option.some.injEq,
        forall_eq', ← not_lt, or_iff_not_imp_left]

theorem batch_safe_iff : Safe True (TransactionBatchExecutedEvent.fromLog log) ↔ BatchLogRegular log := by
  unfold TransactionBatchExecutedEvent.fromLog BatchLogRegular
  cases log.topics[1]? with
  | none => exact iff_of_true trivial fun _ missing => nomatch missing
  | some batchNonce =>
      cases log.topics[2]? with
      | none => exact iff_of_true trivial fun _ _ _ missing => nomatch missing
      | some erc20 =>
          simp only [safe_addressOfTopic, safe_height, Option.some.injEq, forall_eq']
          refine and_iff_left fun number _ => ?_
          split_ifs
          · trivial
          · trivial

theorem deposit_safe_iff {crates : OracleCrates}
    (accounts : ∀ bytes : Bytes, bytes.length = 20 → (crates.cosmosFromBytes bytes).isSome) :
    Safe True (SendToCosmosEvent.fromLog crates log) ↔ DepositLogRegular log := by
  unfold SendToCosmosEvent.fromLog DepositLogRegular
  cases log.topics[1]? with
  | none => exact iff_of_true trivial fun _ missing => nomatch missing
  | some erc20 =>
      cases log.topics[2]? with
      | none => exact iff_of_true trivial fun _ _ _ missing => nomatch missing
      | some sender =>
          cases log.topics[3]? with
          | none => exact iff_of_true trivial fun _ _ _ _ _ missing => nomatch missing
          | some destination =>
              simp only [safe_addressOfTopic, safe_range (show 12 ≤ 32 by decide), Option.some.injEq,
                forall_eq']
              refine and_congr_right fun _ => and_congr_right fun _ => and_congr_right fun long => ?_
              have twenty : ((destination.drop 12).take (32 - 12)).length = 20 := by
                rw [List.length_take, List.length_drop, Nat.min_eq_left (Nat.sub_le_sub_right long 12)]
              obtain ⟨account, parsed⟩ := Option.isSome_iff_exists.mp (accounts _ twenty)
              rw [cosmosAddressOf, parsed]
              refine (safe_range (Nat.zero_le 32)).trans (and_iff_left_of_imp fun inside => ?_)
              refine (safe_range inside).mpr ⟨Nat.le_refl _, safe_height.mpr fun number _ => ?_⟩
              split_ifs
              · trivial
              · trivial

theorem deployed_safe_iff : Safe True (Erc20DeployedEvent.fromLogUsize log) ↔ DeploymentLogRegular log := by
  unfold Erc20DeployedEvent.fromLogUsize DeploymentLogRegular
  cases log.topics[1]? with
  | none => exact iff_of_true trivial fun _ missing => nomatch missing
  | some tokenContract =>
      simp only [safe_addressOfTopic, safe_uint256At, safe_atMost, safe_stringUsize, safe_nextString,
        safe_height, safe_pure, implies_true, Option.some.injEq, forall_eq']

/-- **Total and strict decoding** of one log: no parser panics, so that none leaves the data or overflows an
index; and a validator set update whose two lengths differ is refused. -/
structure DecodesLog (crates : OracleCrates) (log : Log) : Prop where
  valset : ∀ reason, ValsetUpdatedEvent.fromLogUsize log ≠ .panic reason
  batch : ∀ reason, TransactionBatchExecutedEvent.fromLog log ≠ .panic reason
  deposit : ∀ reason, SendToCosmosEvent.fromLog crates log ≠ .panic reason
  deployment : ∀ reason, Erc20DeployedEvent.fromLogUsize log ≠ .panic reason
  strict : CountsDiffer log.data → ∃ reason, ValsetUpdatedEvent.fromLogUsize log = .error reason

theorem safe_true_iff {α : Type} {outcome : EventResult α} :
    Safe True outcome ↔ ∀ reason, outcome ≠ .panic reason := by
  cases outcome with
  | ok value => simp [Safe]
  | error reason => simp [Safe]
  | panic reason => simp [Safe]

theorem safe_not_iff {α : Type} {differ : Prop} {outcome : EventResult α} :
    Safe (¬ differ) outcome ↔ (∀ reason, outcome ≠ .panic reason) ∧
      (differ → ∃ reason, outcome = .error reason) := by
  cases outcome with
  | ok value => simp [Safe]
  | error reason => simp [Safe]
  | panic reason => simp [Safe]

/-- **Event decoders, and when they are total and strict.** For every log with any topics and any data: no
parser panics and a validator set with differing lengths is refused, exactly where each parser finds a log of
its event regular. -/
theorem event_decoders_total_iff (crates : OracleCrates)
    (accounts : ∀ bytes : Bytes, bytes.length = 20 → (crates.cosmosFromBytes bytes).isSome) (log : Log) :
    DecodesLog crates log ↔
      ValsetLogRegular log ∧ BatchLogRegular log ∧ DepositLogRegular log ∧ DeploymentLogRegular log := by
  rw [← valset_safe_iff, ← batch_safe_iff, ← deposit_safe_iff accounts, ← deployed_safe_iff, safe_not_iff,
    safe_true_iff, safe_true_iff, safe_true_iff]
  constructor
  · exact fun decodes => ⟨⟨decodes.valset, decodes.strict⟩, decodes.batch, decodes.deposit,
      decodes.deployment⟩
  · rintro ⟨⟨valset, strict⟩, batch, deposit, deployment⟩
    exact ⟨valset, batch, deposit, deployment, strict⟩

end Logs

/-! ### Indices in ℕ -/

section Indices

variable {α β γ : Type}

/-- The same value or error, or two panics. -/
def Agrees (first second : EventResult α) : Prop :=
  first = second ∨ (∃ reason, first = .panic reason) ∧ ∃ reason, second = .panic reason

theorem Agrees.refl (outcome : EventResult α) : Agrees outcome outcome := Or.inl rfl

theorem Agrees.bind {first second : EventResult α} {next next' : α → EventResult β}
    (agrees : Agrees first second) (later : ∀ value, Agrees (next value) (next' value)) :
    Agrees (first >>= next) (second >>= next') := by
  rcases agrees with rfl | ⟨⟨_, rfl⟩, _, rfl⟩
  · cases first with
    | ok value => exact later value
    | error reason => exact Agrees.refl _
    | panic reason => exact Agrees.refl _
  · exact Or.inr ⟨⟨_, rfl⟩, _, rfl⟩

theorem Agrees.mapM {f f' : α → EventResult β} {items : List α} (each : ∀ item, Agrees (f item) (f' item)) :
    Agrees (items.mapM f) (items.mapM f') := by
  induction items with
  | nil => exact Agrees.refl _
  | cons item rest ih =>
      rw [List.mapM_cons, List.mapM_cons]
      exact (each item).bind fun _ => ih.bind fun _ => Agrees.refl _

variable {data : Bytes}

/-- A range that ends behind all data there can be. -/
theorem range_panic {start stop : Nat} (outside : data.length < stop) :
    range data start stop = .panic .range := by
  have out : ¬ (start ≤ stop ∧ stop ≤ data.length) := fun inside => absurd inside.2 (not_le.mpr outside)
  rw [range, slice?, if_neg out]

theorem uint256At_panic {start : Nat} {next : Nat → EventResult α} (outside : data.length < start + 32) :
    ∃ reason, (uint256At data start >>= next) = .panic reason := by
  rw [uint256At, range_panic outside]
  exact ⟨_, rfl⟩

/-- An index that overflows is one where nothing is read in ℕ. -/
theorem agrees_usize {value : Nat} {next : Nat → EventResult α} {second : EventResult α}
    (small : value < 2 ^ 64 → Agrees (next value) second)
    (large : 2 ^ 64 ≤ value → ∃ reason, second = .panic reason) : Agrees (usize value >>= next) second := by
  by_cases fits : value < 2 ^ 64
  · rw [usize_of_lt fits]
    exact small fits
  · rw [usize, if_neg fits]
    exact Or.inr ⟨⟨_, rfl⟩, large (not_lt.mp fits)⟩

/-- A word whose end is computed is read as in ℕ, if no word is read behind all data there can be. -/
theorem agrees_wordUsize (held : data.length < 2 ^ 63) {start : Nat} {next : Nat × Nat → EventResult α}
    {next' : Nat → EventResult α} (later : ∀ value, Agrees (next (value, start + 32)) (next' value)) :
    Agrees (wordUsize data start >>= next) (uint256At data start >>= next') := by
  rw [wordUsize, bind_assoc]
  refine agrees_usize (fun _ => ?_) fun large => uint256At_panic (by omega)
  rw [uint256At, bind_assoc, bind_assoc]
  exact (Agrees.refl _).bind fun bytes => later (beValue bytes)

theorem decodeMember_agrees (held : data.length < 2 ^ 63) {powersOffset ethAddressesOffset : Nat}
    (order : ethAddressesOffset ≤ powersOffset) (i : Nat) :
    Agrees (decodeMemberUsize data powersOffset ethAddressesOffset i)
      (decodeMember data powersOffset ethAddressesOffset i) := by
  by_cases small : i * 32 + powersOffset + 32 < 2 ^ 64
  · refine Or.inl ?_
    simp (disch := omega) only [decodeMemberUsize, decodeMember, uint256At, usize_of_lt, Outcome.ok_bind,
      bind_assoc, pure_bind]
  · refine Or.inr ⟨exists_panic_of_not_safe fun safe => small ?_, .range, ?_⟩
    · simp only [decodeMemberUsize, safe_usize] at safe
      exact safe.2.2.1
    · rw [decodeMember, uint256At, range_panic (by omega)]
      rfl

/-- **The parser of validator sets**, with the indices of the source and with indices in ℕ. -/
theorem valset_agrees {log : Log} (held : log.data.length < 2 ^ 63) :
    Agrees (ValsetUpdatedEvent.fromLogUsize log) (ValsetUpdatedEvent.fromLog log) := by
  unfold ValsetUpdatedEvent.fromLogUsize ValsetUpdatedEvent.fromLog
  cases log.topics[1]? with
  | none => exact Agrees.refl _
  | some valsetNonce =>
      refine (Agrees.refl _).bind fun _ => (Agrees.refl _).bind fun _ => Agrees.bind ?_ fun _ => Agrees.refl _
      unfold ValsetDataBytes.decodeUsize ValsetDataBytes.decode
      refine (Agrees.refl _).bind fun _ => (Agrees.refl _).bind fun _ => (Agrees.refl _).bind fun _ =>
        (Agrees.refl _).bind fun _ => (Agrees.refl _).bind fun _ => (Agrees.refl _).bind fun _ =>
        (Agrees.refl _).bind fun count => ?_
      refine agrees_usize (fun _ => agrees_usize (fun _ => ?_) fun large => uint256At_panic (by omega))
        fun large => uint256At_panic (by omega)
      refine agrees_wordUsize held fun powers => (Agrees.refl _).bind fun _ => ?_
      rw [if_neg (not_not.mpr rfl), if_neg (not_not.mpr rfl)]
      refine Agrees.bind (Agrees.mapM fun i => ?_) fun _ => Agrees.refl _
      exact decodeMember_agrees held (by omega) i

theorem stringUsize_agrees (held : data.length < 2 ^ 63) (reason : EventError) (index : Nat) :
    Agrees (stringUsize reason data index) (stringAt reason data index) := by
  unfold stringUsize stringAt
  refine agrees_wordUsize held fun length => (Agrees.refl _).bind fun length => ?_
  refine agrees_usize (fun _ => Agrees.refl _) fun large => ?_
  rw [range_panic (by omega)]
  exact ⟨_, rfl⟩

theorem nextString_agrees (held : data.length < 2 ^ 63) {reason : EventError} {index : Nat}
    {next next' : Bytes × Nat → EventResult α} (later : ∀ text, Agrees (next text) (next' text)) :
    Agrees (nextWordUsize index >>= fun start => stringUsize reason data start >>= next)
      (stringAt reason data (nextWord index) >>= next') := by
  have halts (large : 2 ^ 64 ≤ index + 31) :
      ∃ cause, (stringAt reason data (nextWord index) >>= next') = .panic cause := by
    rw [stringAt, bind_assoc]
    exact uint256At_panic (by rw [nextWord]; omega)
  rw [nextWordUsize, bind_assoc]
  refine agrees_usize (fun small => agrees_usize (fun _ => ?_) fun large => ?_) halts
  · exact (stringUsize_agrees held reason _).bind later
  · exact absurd large (by omega)

/-- **The parser of deployments**, likewise. -/
theorem deployed_agrees {log : Log} (held : log.data.length < 2 ^ 63) :
    Agrees (Erc20DeployedEvent.fromLogUsize log) (Erc20DeployedEvent.fromLog log) := by
  unfold Erc20DeployedEvent.fromLogUsize Erc20DeployedEvent.fromLog
  cases log.topics[1]? with
  | none => exact Agrees.refl _
  | some tokenContract =>
      refine (Agrees.refl _).bind fun _ => (Agrees.refl _).bind fun _ => (Agrees.refl _).bind fun _ =>
        (Agrees.refl _).bind fun _ => (Agrees.refl _).bind fun _ => ?_
      refine (stringUsize_agrees held _ _).bind fun denom => nextString_agrees held fun name => ?_
      exact nextString_agrees held fun symbol => Agrees.refl _

end Indices

/-! ### Some logs -/

/-- A log of the event for validator sets with these words as its data. -/
def exampleValsetLog (words : List Nat) : Log :=
  ⟨[List.replicate 32 7, wordBytes 4], words.flatMap wordBytes, some 100⟩

/-- Three members of equal powers. -/
def exampleValsetWords : List Nat := [1, 0, 0, 160, 288, 3, 2 ^ 150, 2 ^ 151, 2 ^ 152, 3, 5, 5, 5]

theorem event_decoders_example : DecodesLog exampleOracleCrates (exampleValsetLog exampleValsetWords) := by
  refine (event_decoders_total_iff exampleOracleCrates (fun _ _ => rfl) _).mpr ⟨?_, ?_, ?_, ?_⟩
  · intro _ _ _ _ _
    decide +kernel
  · intro _ _ _ missing
    cases missing
  · intro _ _ _ missing
    cases missing
  · intro tokenContract topic
    obtain rfl := Option.some.inj topic
    decide +kernel

/-- **Panics, and a list of powers that is not read**: without data a range is out of it; with 2^64 - 1
addresses an index overflows; with no address and one power there is an event without members. -/
theorem event_decoders_panic :
    ValsetUpdatedEvent.fromLogUsize (exampleValsetLog []) = .panic .range ∧
      ValsetUpdatedEvent.fromLogUsize (exampleValsetLog [1, 0, 0, 160, 288, 2 ^ 64 - 1]) =
        .panic .overflow ∧
      (CountsDiffer (exampleValsetLog [1, 0, 0, 160, 192, 0, 1, 5]).data ∧
        ValsetUpdatedEvent.fromLogUsize (exampleValsetLog [1, 0, 0, 160, 192, 0, 1, 5]) =
          .ok ⟨4, 1, 100, 0, none, []⟩) ∧
      ¬ DecodesLog exampleOracleCrates (exampleValsetLog []) ∧
      ¬ DecodesLog exampleOracleCrates (exampleValsetLog [1, 0, 0, 160, 288, 2 ^ 64 - 1]) ∧
      ¬ DecodesLog exampleOracleCrates (exampleValsetLog [1, 0, 0, 160, 192, 0, 1, 5]) := by
  have short : ValsetUpdatedEvent.fromLogUsize (exampleValsetLog []) = .panic .range := by decide +kernel
  have long : ValsetUpdatedEvent.fromLogUsize (exampleValsetLog [1, 0, 0, 160, 288, 2 ^ 64 - 1]) =
      .panic .overflow := by decide +kernel
  have differ : CountsDiffer (exampleValsetLog [1, 0, 0, 160, 192, 0, 1, 5]).data := by
    unfold CountsDiffer
    decide +kernel
  have lenient : ValsetUpdatedEvent.fromLogUsize (exampleValsetLog [1, 0, 0, 160, 192, 0, 1, 5]) =
      .ok ⟨4, 1, 100, 0, none, []⟩ := by decide +kernel
  refine ⟨short, long, ⟨differ, lenient⟩, fun decodes => ?_, fun decodes => ?_, fun decodes => ?_⟩
  · exact decodes.valset _ short
  · exact decodes.valset _ long
  · obtain ⟨reason, refused⟩ := decodes.strict differ
    rw [lenient] at refused
    cases refused

end NabBridge
