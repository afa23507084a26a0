import Verdiff.Syscalls

/-! Hashing a file, comparing two files byte for byte and the text test. -/

set_option autoImplicit false

namespace Verdiff

/-- XXH3 in its one-shot and its streaming form. Nothing is assumed of the hash but
that both forms are one function of the bytes; `none` is `XXH_ERROR`. -/
structure Xxh3 where
  State : Type
  oneShot : Bytes → UInt64
  reset : State
  update : State → Bytes → Option State
  digest : State → UInt64
  streaming : ∀ chunks : List Bytes, ∃ state,
    chunks.foldlM update reset = some state ∧ digest state = oneShot chunks.flatten

def Xxh3.ofFunction (hash : Bytes → UInt64) : Xxh3 where
  State := Bytes
  oneShot := hash
  reset := []
  update := fun state chunk => some (state ++ chunk)
  digest := hash
  streaming := by
    have collects : ∀ (chunks : List Bytes) (state : Bytes),
        chunks.foldlM (fun state chunk => some (state ++ chunk)) state = some (state ++ chunks.flatten) := by
      intro chunks
      induction chunks with
      | nil => simp
      | cons chunk rest ih => intro state; simp [ih]
    intro chunks
    exact ⟨chunks.flatten, collects chunks [], rfl⟩

/-- The outcomes of the calls one `hash_file_xxh3` makes besides `open`. -/
structure HashEnv where
  fstat : Option Fault
  mapping : Option Fault
  seek : Option Fault
  stateOk : Bool
  bufferOk : Bool
  reads : Nat → ReadResult

section
variable (xxh : Xxh3)

/-- An empty mapping hashes the empty string; `mmap` would refuse it. -/
def hashFileMmap (content : Bytes) (mapping : Option Fault) : Except Fault UInt64 :=
  if content.length = 0 then .ok (xxh.oneShot [])
  else match mapping with
    | some fault => .error fault
    | none => .ok (xxh.oneShot content)

/-- The `read` and update loop; `turn` numbers the calls of `read`. -/
def hashStreamLoop (bufferSize : Nat) (reads : Nat → ReadResult) (turn : Nat) (state : xxh.State)
    (left : Bytes) : Except Fault xxh.State :=
  match _ : readChunk bufferSize left (reads turn) with
  | .error fault => .error fault
  | .ok (chunk, rest) =>
    if chunk.length = 0 then .ok state
    else match xxh.update state chunk with
      | none => .error Fault.EIO
      | some state => hashStreamLoop bufferSize reads (turn + 1) state rest
termination_by left.length
decreasing_by exact readChunk_decreases ‹_› ‹_›

def hashFileStream (content : Bytes) (bufferSize : Nat) (env : HashEnv) : Except Fault UInt64 :=
  if !env.stateOk then .error .ENOMEM
  else if !env.bufferOk then .error .ENOMEM
  else match hashStreamLoop xxh bufferSize env.reads 0 xxh.reset content with
    | .error fault => .error fault
    | .ok state => .ok (xxh.digest state)

def hashFileXxh3 (file : Except Fault Bytes) (bufferSize mmapThreshold : Nat) (env : HashEnv) :
    Except Fault UInt64 :=
  match file with
  | .error fault => .error fault
  | .ok content =>
    match env.fstat with
    | some fault => .error fault
    | none =>
      if content.length ≤ mmapThreshold then
        match hashFileMmap xxh content env.mapping with
        | .ok hash => .ok hash
        -- A mapping that fails is no error yet; the file is read from its start instead.
        | .error _ =>
          match env.seek with
          | some fault => .error fault
          | none => hashFileStream xxh content bufferSize env
      else hashFileStream xxh content bufferSize env

end

structure BinaryEnv where
  bufferAOk : Bool
  bufferBOk : Bool
  readsA : Nat → ReadResult
  readsB : Nat → ReadResult

def BinaryEnv.Full (env : BinaryEnv) (bufferSize : Nat) : Prop :=
  (∀ turn, (env.readsA turn).Full bufferSize) ∧ ∀ turn, (env.readsB turn).Full bufferSize

/-- The lock-step loop; both descriptors are read once a turn. -/
def compareBinaryLoop (bufferSize : Nat) (env : BinaryEnv) (turn : Nat) (leftA leftB : Bytes) :
    Except Fault Bool :=
  match _ : readChunk bufferSize leftA (env.readsA turn) with
  | .error fault => .error fault
  | .ok (chunkA, restA) =>
    match readChunk bufferSize leftB (env.readsB turn) with
    | .error fault => .error fault
    | .ok (chunkB, restB) =>
      -- A short `read` of one descriptor alone counts as a difference of the files.
      if chunkA.length ≠ chunkB.length then .ok false
      else if chunkA.length = 0 then .ok true
      else if chunkA ≠ chunkB then .ok false
      else compareBinaryLoop bufferSize env (turn + 1) restA restB
termination_by leftA.length
decreasing_by exact readChunk_decreases ‹_› ‹_›

def vdCompareBinaryFiles (fileA fileB : Except Fault Bytes) (bufferSize : Nat) (env : BinaryEnv) :
    Except Fault Bool :=
  match fileA, fileB with
  | .error fault, _ => .error fault
  | .ok _, .error fault => .error fault
  | .ok contentA, .ok contentB =>
    if !env.bufferAOk || !env.bufferBOk then .error .ENOMEM
    else compareBinaryLoop bufferSize env 0 contentA contentB

def isTextByte (ch : UInt8) : Bool :=
  if ch = 0 then false
  else if (ch < 9 || ch > 126) && ch != 10 && ch != 13 && ch != 9 && ch != 12 then false
  else true

def vdIsLikelyTextFile (file : Except Fault Bytes) (result : ReadResult) : Bool :=
  match file with
  | .error _ => false
  | .ok content =>
    match readChunk 8192 content result with
    | .error _ => false
    | .ok (buffer, _) => buffer.all isTextByte

/-! ## Hashing -/

section
variable {xxh : Xxh3} {bufferSize : Nat}

theorem hashStreamLoop_ok (positive : 1 ≤ bufferSize) {reads : Nat → ReadResult} {turn : Nat}
    {state final : xxh.State} {left : Bytes}
    (looped : hashStreamLoop xxh bufferSize reads turn state left = .ok final) :
    ∃ chunks : List Bytes, chunks.flatten = left ∧ chunks.foldlM xxh.update state = some final := by
  -- Without a fault the loop has fed the rest of the file, cut in some way.
  -- How far a turn gets is up to `read`, so the induction is on the length of what is left.
  induction left using WellFounded.induction (measure List.length).wf generalizing turn state with
  | _ left ih =>
    rw [hashStreamLoop] at looped
    split at looped
    · cases looped
    next chunk rest read =>
      split at looped
      next empty =>
        cases looped
        exact ⟨[], by simp [readChunk_end positive read empty], rfl⟩
      next nonempty =>
        split at looped
        · cases looped
        next next updated =>
          obtain ⟨chunks, content, fed⟩ := ih rest (readChunk_decreases read nonempty) looped
          refine ⟨chunk :: chunks, by rw [List.flatten_cons, content, readChunk_ok read], ?_⟩
          simp [updated, fed]

theorem hashFileStream_ok (positive : 1 ≤ bufferSize) {content : Bytes} {env : HashEnv} {hash : UInt64}
    (hashed : hashFileStream xxh content bufferSize env = .ok hash) : hash = xxh.oneShot content := by
  unfold hashFileStream at hashed
  split at hashed
  · cases hashed
  split at hashed
  · cases hashed
  split at hashed
  · cases hashed
  next state looped =>
    cases hashed
    -- However the file was cut, the streaming form agrees with the hash of the whole.
    obtain ⟨chunks, rfl, fed⟩ := hashStreamLoop_ok positive looped
    obtain ⟨_, same, digest⟩ := xxh.streaming chunks
    rw [fed] at same
    cases same
    exact digest

/-- Whichever route is taken, a hash that is returned is the hash of the content. -/
theorem hashFileXxh3_ok (positive : 1 ≤ bufferSize) {content : Bytes} {mmapThreshold : Nat}
    {env : HashEnv} {hash : UInt64}
    (hashed : hashFileXxh3 xxh (.ok content) bufferSize mmapThreshold env = .ok hash) :
    hash = xxh.oneShot content := by
  unfold hashFileXxh3 at hashed
  simp only at hashed
  split at hashed
  · cases hashed
  split at hashed
  · split at hashed
    next mapped =>
      cases hashed
      unfold hashFileMmap at mapped
      split at mapped
      next empty =>
        cases mapped
        rw [List.length_eq_zero_iff.mp empty]
      · split at mapped
        · cases mapped
        · cases mapped; rfl
    · split at hashed
      · cases hashed
      · exact hashFileStream_ok positive hashed
  · exact hashFileStream_ok positive hashed

/-- Apart from `mmap` no call fails; `read` may still come back with less than it was asked for. -/
structure HashEnv.Serves (env : HashEnv) : Prop where
  fstat : env.fstat = none
  seek : env.seek = none
  stateOk : env.stateOk = true
  bufferOk : env.bufferOk = true
  reads : ∀ turn, (env.reads turn).Succeeds

theorem hashStreamLoop_ends {reads : Nat → ReadResult} (succeed : ∀ turn, (reads turn).Succeeds)
    (fed : List Bytes) {turn : Nat} {state : xxh.State} {left : Bytes}
    (updated : fed.foldlM xxh.update xxh.reset = some state) :
    ∃ final, hashStreamLoop xxh bufferSize reads turn state left = .ok final := by
  -- Unless a `read` fails the loop comes to the end of the file.
  induction left using WellFounded.induction (measure List.length).wf generalizing fed turn state with
  | _ left ih =>
    obtain ⟨chunk, rest, read⟩ := readChunk_succeeds (succeed turn) bufferSize left
    rw [hashStreamLoop]
    split
    next fault failed => rw [read] at failed; cases failed
    next other later again =>
      rw [read] at again
      cases again
      split
      next empty => exact ⟨state, rfl⟩
      next nonempty =>
        -- The state can take the next chunk as it could take all chunks so far.
        obtain ⟨next, grown, _⟩ := xxh.streaming (fed ++ [chunk])
        have step : xxh.update state chunk = some next := by simpa [List.foldlM_append, updated] using grown
        rw [step]
        exact ih rest (readChunk_decreases read nonempty) (fed ++ [chunk]) grown

theorem hashFileStream_ends {content : Bytes} {env : HashEnv} (serves : env.Serves) :
    ∃ hash, hashFileStream xxh content bufferSize env = .ok hash := by
  obtain ⟨final, ends⟩ := @hashStreamLoop_ends xxh bufferSize _ serves.reads [] 0 xxh.reset content rfl
  unfold hashFileStream
  simp [serves.stateOk, serves.bufferOk, ends]

theorem hashFileXxh3_ends {content : Bytes} {mmapThreshold : Nat} {env : HashEnv} (serves : env.Serves) :
    ∃ hash, hashFileXxh3 xxh (.ok content) bufferSize mmapThreshold env = .ok hash := by
  obtain ⟨hash, streamed⟩ := @hashFileStream_ends xxh bufferSize content env serves
  unfold hashFileXxh3
  simp only [serves.fstat, serves.seek]
  split
  next small =>
    cases mapped : hashFileMmap xxh content env.mapping with
    | ok hash => exact ⟨hash, rfl⟩
    | error fault => exact ⟨hash, streamed⟩
  next large => exact ⟨hash, streamed⟩

/-- The mapping, the stream and the stream behind a failed mapping give the same hash. -/
theorem hash_file_xxh3_routes (xxh : Xxh3) (positive : 1 ≤ bufferSize) (content : Bytes) (mmapThreshold : Nat)
    {env : HashEnv} (serves : env.Serves) :
    hashFileXxh3 xxh (.ok content) bufferSize mmapThreshold env = .ok (xxh.oneShot content) := by
  obtain ⟨hash, hashed⟩ := @hashFileXxh3_ends xxh bufferSize content mmapThreshold env serves
  rw [hashed, hashFileXxh3_ok positive hashed]

/-- A mapping fails, and the stream then gets one byte at a time. -/
theorem hash_file_xxh3_routes_fallback :
    hashFileXxh3 (.ofFunction fun bytes => bytes.length.toUInt64) (.ok [1, 2, 3]) 2 16
      ⟨none, some Fault.EIO, none, true, true, fun _ => .upTo 1⟩ = .ok 3 :=
  hash_file_xxh3_routes _ (by decide) _ _ ⟨rfl, rfl, rfl, rfl, fun _ => trivial⟩

theorem hashFileXxh3_opened {file : Except Fault Bytes} {mmapThreshold : Nat} {env : HashEnv} {hash : UInt64}
    (hashed : hashFileXxh3 xxh file bufferSize mmapThreshold env = .ok hash) :
    ∃ content, file = .ok content := by
  cases file with
  | error fault => cases hashed
  | ok content => exact ⟨content, rfl⟩

end

/-! ## Byte comparison -/

theorem compareBinaryLoop_cuts {bufferSize : Nat} (positive : 1 ≤ bufferSize) {env : BinaryEnv}
    (succeedA : ∀ turn, (env.readsA turn).Succeeds) (succeedB : ∀ turn, (env.readsB turn).Succeeds)
    (turn : Nat) (leftA leftB : Bytes) :
    compareBinaryLoop bufferSize env turn leftA leftB = .ok (decide (leftA = leftB ∧
      readLengths bufferSize env.readsA turn leftA.length = readLengths bufferSize env.readsB turn leftB.length)) := by
  -- Without a failing `read` the loop decides equality, except that equal files cut differently count as
  -- different.
  induction leftA using WellFounded.induction (measure List.length).wf generalizing turn leftB with
  | _ leftA ih =>
    obtain ⟨chunkA, restA, readA⟩ := readChunk_succeeds (succeedA turn) bufferSize leftA
    obtain ⟨chunkB, restB, readB⟩ := readChunk_succeeds (succeedB turn) bufferSize leftB
    have splitA := readChunk_ok readA
    have splitB := readChunk_ok readB
    rw [compareBinaryLoop, readLengths_chunk readA, readLengths_chunk readB]
    split
    next fault failed => rw [readA] at failed; cases failed
    next other later again =>
      rw [readA] at again
      cases again
      rw [readB]
      simp only
      split
      next lengths =>
        have apart : ¬ (leftA = leftB ∧ (if chunkA.length = 0 then [] else chunkA.length ::
            readLengths bufferSize env.readsA (turn + 1) restA.length) = if chunkB.length = 0 then [] else
            chunkB.length :: readLengths bufferSize env.readsB (turn + 1) restB.length) := by
          rintro ⟨_, cuts⟩
          by_cases emptyA : chunkA.length = 0 <;> by_cases emptyB : chunkB.length = 0 <;> simp_all
        rw [decide_eq_false apart]
      next lengths =>
        simp only [ne_eq, not_not] at lengths
        split
        next empty =>
          have endA : leftA = [] := readChunk_end positive readA empty
          have endB : leftB = [] := readChunk_end positive readB (by rw [← lengths]; exact empty)
          simp [endA, endB, empty, ← lengths]
        next nonempty =>
          rw [if_neg (show ¬ chunkB.length = 0 by rwa [← lengths])]
          split
          next differ =>
            have apart : leftA ≠ leftB := by
              intro same
              rw [splitA, splitB] at same
              exact differ (List.append_inj same lengths).1
            simp [apart]
          next same =>
            simp only [ne_eq, not_not] at same
            rw [ih _ (readChunk_decreases readA nonempty), splitA, splitB, same]
            simp

theorem compareBinaryLoop_full {bufferSize : Nat} (positive : 1 ≤ bufferSize) {env : BinaryEnv}
    (full : env.Full bufferSize) (turn : Nat) (leftA leftB : Bytes) :
    compareBinaryLoop bufferSize env turn leftA leftB = .ok (decide (leftA = leftB)) := by
  have cuts := compareBinaryLoop_cuts positive (fun turn => (full.1 turn).succeeds)
    (fun turn => (full.2 turn).succeeds) turn leftA leftB
  have alike : leftA = leftB → readLengths bufferSize env.readsA turn leftA.length =
      readLengths bufferSize env.readsB turn leftB.length := by
    rintro rfl
    exact readLengths_full full.1 full.2 turn turn _
  rw [cuts, decide_eq_decide.mpr (and_iff_left_of_imp alike)]

theorem vdCompareBinaryFiles_full {bufferSize : Nat} (positive : 1 ≤ bufferSize) {env : BinaryEnv}
    (full : env.Full bufferSize) {contentA contentB : Bytes} {equal : Bool}
    (compared : vdCompareBinaryFiles (.ok contentA) (.ok contentB) bufferSize env = .ok equal) :
    equal = decide (contentA = contentB) := by
  simp only [vdCompareBinaryFiles] at compared
  split at compared
  · cases compared
  · rw [compareBinaryLoop_full positive full] at compared
    cases compared
    rfl

/-- `vd_compare_binary_files` tells whether two files are equal exactly when its buffers can be
allocated and equal files are cut into chunks of the same lengths. -/
theorem vd_compare_binary_files_exact {bufferSize : Nat} (positive : 1 ≤ bufferSize) {env : BinaryEnv}
    (succeedA : ∀ turn, (env.readsA turn).Succeeds) (succeedB : ∀ turn, (env.readsB turn).Succeeds)
    (contentA contentB : Bytes) :
    vdCompareBinaryFiles (.ok contentA) (.ok contentB) bufferSize env = .ok (decide (contentA = contentB)) ↔
      env.bufferAOk = true ∧ env.bufferBOk = true ∧ (contentA = contentB →
        readLengths bufferSize env.readsA 0 contentA.length =
          readLengths bufferSize env.readsB 0 contentA.length) := by
  rw [vdCompareBinaryFiles]
  by_cases allocated : env.bufferAOk = true ∧ env.bufferBOk = true
  · have loops := compareBinaryLoop_cuts positive succeedA succeedB 0 contentA contentB
    simp only [allocated.1, allocated.2, Bool.not_true, Bool.or_self, Bool.false_eq_true, ↓reduceIte, loops,
      Except.ok.injEq, decide_eq_decide, true_and]
    constructor
    · rintro same rfl
      exact (same.mpr rfl).2
    · intro cuts
      refine ⟨fun both => both.1, ?_⟩
      rintro rfl
      exact ⟨rfl, cuts rfl⟩
  · have refused : (!env.bufferAOk || !env.bufferBOk) = true := by
      cases okA : env.bufferAOk <;> cases okB : env.bufferBOk <;> simp_all
    simp only [refused, ↓reduceIte, reduceCtorEq, false_iff]
    exact fun cuts => allocated ⟨cuts.1, cuts.2.1⟩

/-- Both descriptors are given the two bytes in one piece. -/
theorem vd_compare_binary_files_exact_level :
    vdCompareBinaryFiles (.ok [120, 10]) (.ok [120, 10]) 4 ⟨true, true, fun _ => .upTo 2, fun _ => .upTo 4⟩ =
      .ok (decide ([120, 10] = ([120, 10] : Bytes))) := by
  let env : BinaryEnv := ⟨true, true, fun _ => .upTo 2, fun _ => .upTo 4⟩
  exact (@vd_compare_binary_files_exact 4 (by decide) env (fun _ => trivial) (fun _ => trivial) _ _).mpr
    ⟨rfl, rfl, fun _ => by decide +kernel⟩

/-- Equal files, of which the first is read one byte at a time. -/
theorem vd_compare_binary_files_short : ∃ env : BinaryEnv, env.bufferAOk = true ∧ env.bufferBOk = true ∧
    (∀ turn, (env.readsA turn).Succeeds) ∧ (∀ turn, (env.readsB turn).Succeeds) ∧
    vdCompareBinaryFiles (.ok [120, 10]) (.ok [120, 10]) 4 env = .ok false :=
  ⟨⟨true, true, fun _ => .upTo 1, fun _ => .upTo 2⟩, rfl, rfl, fun _ => trivial, fun _ => trivial,
    by decide +kernel⟩

/-! ## The text test -/

/-- The bytes that the one `read` of the text test returns; a failed `open` or `read` has none. -/
def examinedBytes (file : Except Fault Bytes) (result : ReadResult) : Option Bytes :=
  match file with
  | .error _ => none
  | .ok content =>
    match readChunk 8192 content result with
    | .error _ => none
    | .ok (buffer, _) => some buffer

/-- A printable character, or one of `\t`, `\n`, `\v`, `\f` and `\r`. -/
def IsTextual (ch : UInt8) : Prop := (0x20 ≤ ch ∧ ch ≤ 0x7E) ∨ (9 ≤ ch ∧ ch ≤ 13)

def ShowsText (file : Except Fault Bytes) (result : ReadResult) : Prop :=
  ∃ examined, examinedBytes file result = some examined ∧ ∀ ch ∈ examined, IsTextual ch

theorem isTextByte_iff {ch : UInt8} : isTextByte ch = true ↔ 9 ≤ ch ∧ ch ≤ 126 := by
  -- The exceptions of the test name bytes its range lets through anyway.
  by_cases null : ch = 0
  · subst null
    decide
  · have branches : isTextByte ch = true ↔ (((9 ≤ ch ∧ ch ≤ 126 ∨ ch = 10) ∨ ch = 13) ∨ ch = 9) ∨ ch = 12 := by
      simp [isTextByte, null]
    rw [branches]
    constructor
    · rintro ((((range | rfl) | rfl) | rfl) | rfl)
      · exact range
      all_goals decide
    · exact fun range => .inl (.inl (.inl (.inl range)))

theorem vdIsLikelyTextFile_iff (file : Except Fault Bytes) (result : ReadResult) :
    vdIsLikelyTextFile file result = true ↔
      ∃ examined, examinedBytes file result = some examined ∧ ∀ ch ∈ examined, 9 ≤ ch ∧ ch ≤ 126 := by
  unfold vdIsLikelyTextFile examinedBytes
  cases file with
  | error fault => simp
  | ok content =>
    simp only
    split
    · simp
    · simp [isTextByte_iff]

theorem isTextual_iff {ch : UInt8} (passes : 9 ≤ ch ∧ ch ≤ 126) : IsTextual ch ↔ ¬ (14 ≤ ch ∧ ch ≤ 31) := by
  -- Between the whitespace and the printable characters lie the bytes the test misjudges.
  simp only [IsTextual, UInt8.le_iff_toNat_le] at passes ⊢
  simp at passes ⊢
  omega

theorem IsTextual.passes {ch : UInt8} (textual : IsTextual ch) : 9 ≤ ch ∧ ch ≤ 126 := by
  simp only [IsTextual, UInt8.le_iff_toNat_le] at textual ⊢
  simp at textual ⊢
  omega

/-- The test answers as it should unless the bytes it reads hold a control character from 14
to 31 and no byte that it refuses. -/
theorem likely_text_shows_text (file : Except Fault Bytes) (result : ReadResult) :
    (vdIsLikelyTextFile file result = true ↔ ShowsText file result) ↔
      ∀ examined, examinedBytes file result = some examined →
        (∀ ch ∈ examined, ¬ (14 ≤ ch ∧ ch ≤ 31)) ∨ ∃ ch ∈ examined, ch < 9 ∨ 126 < ch := by
  rw [vdIsLikelyTextFile_iff, ShowsText]
  constructor
  · intro agrees examined read
    by_cases passes : ∀ ch ∈ examined, 9 ≤ ch ∧ ch ≤ 126
    · obtain ⟨_, same, textual⟩ := agrees.mp ⟨examined, read, passes⟩
      rw [read] at same
      cases same
      exact .inl fun ch member => (isTextual_iff (passes ch member)).mp (textual ch member)
    · push Not at passes
      obtain ⟨ch, member, fails⟩ := passes
      refine .inr ⟨ch, member, ?_⟩
      by_cases low : 9 ≤ ch
      · exact .inr (UInt8.not_le.mp (fails low))
      · exact .inl (UInt8.not_le.mp low)
  · intro judged
    constructor
    · rintro ⟨examined, read, passes⟩
      refine ⟨examined, read, fun ch member => (isTextual_iff (passes ch member)).mpr ?_⟩
      rcases judged examined read with clean | ⟨other, within, refused⟩
      · exact clean ch member
      · obtain ⟨low, high⟩ := passes other within
        rcases refused with below | above
        · exact absurd low (UInt8.not_le.mpr below)
        · exact absurd high (UInt8.not_le.mpr above)
    · rintro ⟨examined, read, textual⟩
      exact ⟨examined, read, fun ch member => (textual ch member).passes⟩

/-- A file of one escape character counts as text. -/
theorem likely_text_shows_escape :
    ¬ (vdIsLikelyTextFile (.ok [27]) (.upTo 8192) = true ↔ ShowsText (.ok [27]) (.upTo 8192)) := by
  intro agrees
  obtain ⟨examined, read, textual⟩ := agrees.mp (by decide)
  cases read
  exact absurd (textual 27 (by simp [readLength])) (by unfold IsTextual; decide)

end Verdiff
