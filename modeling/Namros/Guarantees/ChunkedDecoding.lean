import Namros.Guarantees.ChunkedFormat

/-!
# Decoding an aws-chunked body

The decoder as one function of the whole stream, and the reader as a resumable form of it: what
a reader still has to deliver is a function of its state, and each `Read` takes a part of it
from the front. Hence the bytes delivered and the way the stream ends are the same for all
buffer sizes, and they are those of the grammar.
-/

namespace Namros.Guarantees

open Library Source

/-! ## The decoder of a whole stream -/

/-- The bytes a stream delivers, and what is reported at its end. -/
abbrev Decoding := Bytes × BodyError

/-- The decoding after further bytes in front. -/
def Decoding.after (bytes : Bytes) (d : Decoding) : Decoding := (bytes ++ d.1, d.2)

section

variable (next : Bytes → Decoding)

/-- The decoding of a stream at the end of a chunk; `next` decodes from the next chunk on. -/
def atTerminator (br : Bytes) : Decoding :=
  match consumeCRLF br with
  | .error e => ([], .invalidBody e)
  | .ok rest => next rest

/-- The decoding of a stream inside a chunk. -/
def insideChunk (remain : Nat) (br : Bytes) : Decoding :=
  if br.length < remain then (br, .invalidBody "truncated chunk data")
  else (atTerminator next (br.drop remain)).after (br.take remain)

/-- The end of a stream after the last chunk. -/
def atTrailers (br : Bytes) : BodyError :=
  match consumeTrailers br with
  | .error e => .invalidBody e
  | .ok _ => .eof

/-- The decoding of a stream at a chunk line. -/
def atChunk (br : Bytes) : Decoding :=
  match nextChunkSize br with
  | .error e => ([], .invalidBody e)
  | .ok (size, rest) => if size = 0 then ([], atTrailers rest) else insideChunk next size rest

end

/-- The decoding of a stream of at most the given number of chunks. -/
def decodeChunks : Nat → Bytes → Decoding
  | 0 => fun _ => ([], .eof)
  | n + 1 => atChunk (decodeChunks n)

/-- The decoding of a stream; it has fewer chunks than bytes. -/
def decode (stream : Bytes) : Decoding := decodeChunks (stream.length + 1) stream

variable {br : Bytes}

/-- The rest of a stream is only decoded where it is shorter than the stream. -/
theorem atChunk_congr {next next' : Bytes → Decoding}
    (same : ∀ rest, rest.length < br.length → next rest = next' rest) :
    atChunk next br = atChunk next' br := by
  rw [atChunk, atChunk]
  cases found : nextChunkSize br with
  | error e => rfl
  | ok announced =>
    obtain ⟨size, rest⟩ := announced
    obtain ⟨text, _, rfl⟩ := nextChunkSize_ok.mp found
    simp only [insideChunk, atTerminator]
    cases ended : consumeCRLF (rest.drop size) with
    | error e => rfl
    | ok tail =>
      have shorter := congrArg List.length (consumeCRLF_ok.mp ended)
      simp only [List.length_drop, List.length_append, length_line, List.length_nil] at shorter
      simp only [same tail (by simp only [List.length_append, length_line]; omega)]

variable {n : Nat}

theorem decodeChunks_enough {m : Nat} (n_enough : br.length < n) (m_enough : br.length < m) :
    decodeChunks n br = decodeChunks m br := by
  induction n generalizing m br with
  | zero => omega
  | succ n ih =>
    obtain ⟨m, rfl⟩ : ∃ k, m = k + 1 := ⟨m - 1, by omega⟩
    apply atChunk_congr
    intro rest shorter
    exact ih (by omega) (by omega)

theorem decode_eq (stream : Bytes) : decode stream = atChunk decode stream := by
  rw [decode, decodeChunks]
  apply atChunk_congr
  intro rest shorter
  exact decodeChunks_enough shorter (by omega)

/-! ## The decoder and the grammar -/

/-- What a stream starts with, and how it is decoded. -/
inductive DecodeCase (stream : Bytes) : Prop
  | malformed (e : String) (decoded : decode stream = ([], .invalidBody e))
  | last {text : Bytes} {trailers : List Bytes} (rest : Bytes) (announced : ChunkLine text 0)
      (all : ∀ trailer ∈ trailers, TrailerLine trailer)
      (split : stream = line text ++ (trailers.flatMap line ++ line []) ++ rest)
      (decoded : decode stream = ([], .eof))
  | part {text payload : Bytes} {size : Nat} (rest : Bytes) (e : String)
      (announced : ChunkLine text size) (inside : payload.length ≤ size)
      (split : stream = line text ++ (payload ++ rest))
      (decoded : decode stream = (payload, .invalidBody e))
  | chunk {text payload : Bytes} (rest : Bytes) (announced : ChunkLine text payload.length)
      (nonempty : payload ≠ []) (split : stream = line text ++ (line payload ++ rest))
      (decoded : decode stream = (decode rest).after payload)

theorem decodeCase (stream : Bytes) : DecodeCase stream := by
  cases found : nextChunkSize stream with
  | error e => exact .malformed e (by rw [decode_eq, atChunk, found])
  | ok announced =>
    obtain ⟨size, br⟩ := announced
    obtain ⟨text, chunkLine, split⟩ := nextChunkSize_ok.mp found
    by_cases zero : size = 0
    · subst zero
      cases trailing : consumeTrailers br with
      | error e =>
        exact .malformed e (by rw [decode_eq, atChunk, found]; simp [atTrailers, trailing])
      | ok rest =>
        obtain ⟨trailers, all, rfl⟩ := consumeTrailers_ok.mp trailing
        refine .last rest chunkLine all (by simp [split]) ?_
        rw [decode_eq, atChunk, found]
        simp [atTrailers, trailing]
    · have inside : decode stream = insideChunk decode size br := by
        rw [decode_eq, atChunk, found]
        exact if_neg zero
      by_cases short : br.length < size
      · refine .part [] "truncated chunk data" chunkLine short.le (by simp [split]) ?_
        rw [inside, insideChunk, if_pos short]
      have whole : (br.take size).length = size := List.length_take_of_le (by omega)
      rw [insideChunk, if_neg short, atTerminator] at inside
      cases ended : consumeCRLF (br.drop size) with
      | error e =>
        refine .part (br.drop size) e chunkLine whole.le (by simp [split]) ?_
        simpa [ended, Decoding.after] using inside
      | ok rest =>
        have terminated := consumeCRLF_ok.mp ended
        refine .chunk rest (whole.symm ▸ chunkLine) ?_ ?_ (by simpa only [ended] using inside)
        · rw [ne_eq, ← List.length_eq_zero_iff, whole]
          exact zero
        · rw [split, ← List.take_append_drop size br, terminated]
          simp [line, whole]

/-- What is delivered are the chunks of the stream, in their order. -/
theorem decode_startsWithChunks (stream : Bytes) : StartsWithChunks stream (decode stream).1 := by
  induction h : stream.length using Nat.strong_induction_on generalizing stream with
  | _ n ih =>
    cases decodeCase stream with
    | malformed e decoded => rw [decoded]; exact .none
    | last rest announced all split decoded => rw [decoded]; exact .none
    | part rest e announced inside split decoded =>
      rw [decoded, split]
      exact .part announced inside
    | chunk rest announced nonempty split decoded =>
      have shorter := congrArg List.length split
      simp only [List.length_append, length_line] at shorter
      rw [decoded, split]
      exact .chunk announced (ih _ (by omega) rest rfl)

/-- A stream that ends in EOF starts with a well-formed body. -/
theorem wellFormed_of_decode_eof (stream : Bytes) (ended : (decode stream).2 = .eof) :
    ∃ body rest, stream = body ++ rest ∧ WellFormed body (decode stream).1 := by
  induction h : stream.length using Nat.strong_induction_on generalizing stream with
  | _ n ih =>
    cases decodeCase stream with
    | malformed e decoded => simp [decoded] at ended
    | last rest announced all split decoded =>
      rw [decoded]
      exact ⟨_, rest, split, .last announced all⟩
    | part rest e announced inside split decoded => simp [decoded] at ended
    | chunk tail announced nonempty split decoded =>
      have shorter := congrArg List.length split
      simp only [List.length_append, length_line] at shorter
      rw [decoded] at ended ⊢
      obtain ⟨body, rest, rfl, formed⟩ := ih _ (by omega) tail ended rfl
      exact ⟨_, rest, by simp [split], .chunk announced nonempty formed⟩

/-- A well-formed body is decoded to what it carries, whatever follows it. -/
theorem decode_of_wellFormed {body carried : Bytes} (formed : WellFormed body carried)
    (rest : Bytes) : decode (body ++ rest) = (carried, .eof) := by
  induction formed with
  | @last text trailers announced all =>
    have found : nextChunkSize (line text ++ (trailers.flatMap line ++ line []) ++ rest) =
        .ok (0, trailers.flatMap line ++ (line [] ++ rest)) :=
      nextChunkSize_ok.mpr ⟨text, announced, by simp⟩
    have trailing : consumeTrailers (trailers.flatMap line ++ (line [] ++ rest)) = .ok rest :=
      consumeTrailers_ok.mpr ⟨trailers, all, rfl⟩
    rw [decode_eq, atChunk, found]
    simp [atTrailers, trailing]
  | @chunk text payload body carried announced nonempty formed ih =>
    have found : nextChunkSize (line text ++ (line payload ++ body) ++ rest) =
        .ok (payload.length, line payload ++ (body ++ rest)) :=
      nextChunkSize_ok.mpr ⟨text, announced, by simp⟩
    have positive : payload.length ≠ 0 := by simpa using nonempty
    have ended : consumeCRLF ((line payload ++ (body ++ rest)).drop payload.length) =
        .ok (body ++ rest) :=
      consumeCRLF_ok.mpr (by simp [line])
    have taken : (line payload ++ (body ++ rest)).take payload.length = payload := by
      simp [line]
    rw [decode_eq, atChunk, found]
    simp only [if_neg positive, insideChunk, atTerminator, ended, taken, ih, Decoding.after]
    rw [if_neg (by simp [line])]

/-! ## The reader -/

/-- What a reader still has to deliver. -/
def remaining (r : AwsChunkedReader) : Decoding :=
  match r.readError with
  | some e => ([], e)
  | none =>
    if r.done then ([], .eof)
    else if r.needCRLF then atTerminator (fromChunk r.remain) r.br
    else fromChunk r.remain r.br
where
  fromChunk (remain : Nat) (br : Bytes) : Decoding :=
    if remain ≠ 0 then insideChunk decode remain br else decode br

theorem fromChunk_zero : remaining.fromChunk 0 = decode := by
  funext br
  exact if_neg (not_not.mpr rfl)

/-- A reader that reports the given end at every further `Read`. -/
def Ended (r : AwsChunkedReader) (e : BodyError) : Prop :=
  r.readError = some e ∨ r.readError = none ∧ r.done = true ∧ e = .eof

variable {r : AwsChunkedReader} {size : Nat}

theorem Ended.read {e : BodyError} (ended : Ended r e) (positive : 0 < size) : r.read size =
    ({ err := some e }, r) := by
  rcases ended with failed | ⟨clear, done, rfl⟩
  · rw [AwsChunkedReader.read, failed]
  · rw [AwsChunkedReader.read, clear]
    simp [done, positive.ne']

/-- What one `Read` does: it takes bytes from the front of what is to be delivered, or it takes
them all and reports the end. -/
def Takes (whole : Decoding) (step : BodyRead × AwsChunkedReader) : Prop :=
  step.1.err = none ∧ step.1.bytes ≠ [] ∧ whole = (remaining step.2).after step.1.bytes ∨
    ∃ e, step.1.err = some e ∧ whole = (step.1.bytes, e) ∧ Ended step.2 e

theorem insideChunk_split {remain wanted : Nat} (less : wanted ≤ remain)
    (enough : wanted ≤ br.length) (next : Bytes → Decoding) :
    insideChunk next remain br =
      (insideChunk next (remain - wanted) (br.drop wanted)).after (br.take wanted) := by
  unfold insideChunk
  rw [List.length_drop, List.drop_drop, Nat.add_sub_cancel' less]
  by_cases short : br.length < remain
  · rw [if_pos short, if_pos (by omega)]
    simp [Decoding.after]
  rw [if_neg short, if_neg (by omega)]
  have parts : br.take remain = br.take wanted ++ (br.drop wanted).take (remain - wanted) := by
    rw [← List.take_add, Nat.add_sub_cancel' less]
  simp [Decoding.after, parts]

theorem takes_fail {bytes : Bytes} {detail : String} :
    Takes (bytes, .invalidBody detail) (r.fail bytes detail) :=
  .inr ⟨_, rfl, rfl, .inl rfl⟩

theorem readPayload_takes (clear : r.readError = none) (running : r.done = false)
    (between : r.needCRLF = false) (inside : r.remain ≠ 0) (positive : 0 < size) :
    Takes (insideChunk decode r.remain r.br) (r.readPayload size) := by
  unfold AwsChunkedReader.readPayload
  obtain ⟨wanted, named⟩ : ∃ wanted, wanted = if size > r.remain then r.remain else size := ⟨_, rfl⟩
  have bounds : 0 < wanted ∧ wanted ≤ r.remain := by
    split at named <;> omega
  simp only [← named]
  split
  · next short =>
    -- the stream ends inside the chunk
    rw [List.length_take] at short
    have all : r.br.take wanted = r.br := List.take_of_length_le (by omega)
    rw [all, insideChunk, if_pos (by omega)]
    exact takes_fail
  · next long =>
    rw [List.length_take] at long
    have length : (r.br.take wanted).length = wanted := List.length_take_of_le (by omega)
    refine .inl ⟨rfl, ?_, ?_⟩
    · rw [ne_eq, ← List.length_eq_zero_iff, length]
      omega
    rw [insideChunk_split bounds.2 (by omega), length]
    by_cases finished : r.remain - wanted = 0
    · simp [remaining, fromChunk_zero, clear, running, finished, insideChunk, Decoding.after]
    · simp [remaining, remaining.fromChunk, clear, running, between, finished]

theorem readChunk_takes (clear : r.readError = none) (running : r.done = false)
    (between : r.needCRLF = false) (positive : 0 < size) :
    Takes (remaining.fromChunk r.remain r.br) (r.readChunk size) := by
  unfold AwsChunkedReader.readChunk remaining.fromChunk
  split
  · next inside => exact readPayload_takes clear running between inside positive
  rw [decode_eq, atChunk]
  cases nextChunkSize r.br with
  | error e => exact takes_fail
  | ok announced =>
    obtain ⟨chunkSize, rest⟩ := announced
    simp only
    split
    · rw [atTrailers]
      cases consumeTrailers rest with
      | error e => exact takes_fail
      | ok rest => exact .inr ⟨.eof, rfl, rfl, .inr ⟨clear, rfl, rfl⟩⟩
    · next nonzero =>
      exact readPayload_takes (r := { r with br := rest, remain := chunkSize }) clear running
        between nonzero positive

theorem read_takes (r : AwsChunkedReader) (positive : 0 < size) :
    Takes (remaining r) (r.read size) := by
  unfold AwsChunkedReader.read remaining
  cases clear : r.readError with
  | some e => exact .inr ⟨e, rfl, rfl, .inl clear⟩
  | none =>
    simp only [positive.ne', if_false]
    cases running : r.done with
    | true => exact .inr ⟨.eof, rfl, rfl, .inr ⟨clear, running, rfl⟩⟩
    | false =>
      cases between : r.needCRLF with
      | false => exact readChunk_takes clear running between positive
      | true =>
        simp only [Bool.false_eq_true, if_false, if_true, atTerminator]
        cases consumeCRLF r.br with
        | error e => exact takes_fail
        | ok rest =>
          exact readChunk_takes (r := { br := rest, remain := r.remain }) rfl rfl rfl positive

/-! ## Runs -/

section

variable (stream : Bytes) (sizes : Nat → Nat)

/-- The bytes the first `n` calls of `Read` return. -/
def deliveredBy (n : Nat) : Bytes := (List.range n).flatMap fun i => (readAt stream sizes i).bytes

/-- The run ends with call number `n`: until then the calls return bytes and no error, together
they return the given ones, call `n` reports the end, and so does every further one, with no
bytes. -/
structure EndsAt (n : Nat) (whole : Decoding) : Prop where
  running : ∀ i < n, (readAt stream sizes i).err = none
  delivered : deliveredBy stream sizes (n + 1) = whole.1
  ended : (readAt stream sizes n).err = some whole.2
  stays : ∀ m > n, readAt stream sizes m = { err := some whole.2 }

end

section

variable {stream : Bytes} {sizes : Nat → Nat}

theorem deliveredBy_succ (n : Nat) : deliveredBy stream sizes (n + 1) =
    deliveredBy stream sizes n ++ (readAt stream sizes n).bytes := by
  simp [deliveredBy, List.range_succ]

/-- As long as no end is reported, each call returns bytes, and what is left of the stream's
decoding is what the reader still has to deliver. -/
theorem decode_eq_after (nonempty : ∀ i, 0 < sizes i)
    (running : ∀ i < n, (readAt stream sizes i).err = none) :
    n ≤ (deliveredBy stream sizes n).length ∧
      decode stream =
        (remaining (readerAfter stream sizes n)).after (deliveredBy stream sizes n) := by
  induction n with
  | zero =>
    refine ⟨Nat.zero_le _, ?_⟩
    simp [readerAfter, newAWSChunkedReader, remaining, fromChunk_zero, deliveredBy, Decoding.after]
  | succ n ih =>
    obtain ⟨grown, whole⟩ := ih fun i below => running i (by omega)
    have clear := running n (Nat.lt_succ_self n)
    rcases read_takes (readerAfter stream sizes n) (nonempty n) with
      ⟨-, some, left⟩ | ⟨e, failed, -⟩
    · have longer := List.length_pos_iff.mpr some
      rw [deliveredBy_succ]
      constructor
      · rw [List.length_append]
        exact Nat.add_le_add grown longer
      · rw [whole, left]
        simp [Decoding.after, readAt, readerAfter]
    · rw [readAt, failed] at clear
      cases clear

theorem Ended.after {e : BodyError} (nonempty : ∀ i, 0 < sizes i)
    (ended : Ended (readerAfter stream sizes n) e) (k : Nat) :
    Ended (readerAfter stream sizes (n + k)) e := by
  induction k with
  | zero => exact ended
  | succ k ih =>
    rw [← Nat.add_assoc, readerAfter, ih.read (nonempty _)]
    exact ih

theorem exists_endsAt (nonempty : ∀ i, 0 < sizes i) :
    ∃ n, EndsAt stream sizes n (decode stream) := by
  -- the calls that return no error return as many bytes as the stream delivers, at most
  have stops : ∃ n, (readAt stream sizes n).err ≠ none := by
    by_contra never
    push Not at never
    obtain ⟨grown, whole⟩ := decode_eq_after nonempty (n := (decode stream).1.length + 1)
      fun i _ => never i
    have length := congrArg (fun d => d.1.length) whole
    simp only [Decoding.after, List.length_append] at length
    omega
  have first := Nat.find_spec stops
  have running : ∀ i < Nat.find stops, (readAt stream sizes i).err = none :=
    fun i below => not_not.mp (Nat.find_min stops below)
  generalize Nat.find stops = n at first running
  obtain ⟨-, whole⟩ := decode_eq_after nonempty running
  rcases read_takes (readerAfter stream sizes n) (nonempty n) with
    ⟨clear, -⟩ | ⟨e, failed, left, ended⟩
  · exact absurd clear first
  rw [left] at whole
  refine ⟨n, running, ?_, ?_, ?_⟩
  · rw [whole, deliveredBy_succ]
    rfl
  · rw [whole]
    exact failed
  intro m later
  obtain ⟨k, rfl⟩ := Nat.exists_eq_add_of_lt later
  rw [whole, Nat.add_right_comm, readAt,
    (Ended.after (n := n + 1) nonempty ended k).read (nonempty _)]
  rfl

end

/-- A stream that starts with a well-formed body. -/
def StartsWellFormed (stream : Bytes) : Prop :=
  ∃ body rest carried, stream = body ++ rest ∧ WellFormed body carried

/-- Every stream delivers bytes and ends in a way that do not depend on the sizes of the buffers:
the payload of a well-formed body and EOF where the stream starts with one, otherwise the bytes
of some first chunks and an error that wraps `errInvalidAWSChunkedBody`. -/
theorem chunked_decoding_exact (stream : Bytes) :
    ∃ payload final,
      (∀ sizes : Nat → Nat, (∀ i, 0 < sizes i) → ∃ n, EndsAt stream sizes n (payload, final)) ∧
      StartsWithChunks stream payload ∧
      (final = .eof ↔ StartsWellFormed stream) ∧
      (∀ body rest carried, stream = body ++ rest → WellFormed body carried →
        payload = carried) ∧
      (final ≠ .eof → ∃ detail, final = .invalidBody detail) := by
  refine ⟨(decode stream).1, (decode stream).2, fun sizes nonempty => exists_endsAt nonempty,
    decode_startsWithChunks stream, ⟨?_, ?_⟩, ?_, ?_⟩
  · intro ended
    obtain ⟨body, rest, split, formed⟩ := wellFormed_of_decode_eof stream ended
    exact ⟨body, rest, _, split, formed⟩
  · rintro ⟨body, rest, carried, rfl, formed⟩
    rw [decode_of_wellFormed formed]
  · rintro body rest carried rfl formed
    rw [decode_of_wellFormed formed]
  intro differs
  cases final : (decode stream).2 with
  | eof => exact absurd final differs
  | invalidBody detail => exact ⟨detail, rfl⟩

end Namros.Guarantees
