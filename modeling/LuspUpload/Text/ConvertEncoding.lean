import LuspUpload.Lib.CodePage
import LuspUpload.Lib.Converter

/-!
# Text.ConvertEncoding — the conversion loop of `UniConv`

`ConvertEncoding` calls `iconv` until the input is used up, doubles its buffer when it was too small, and
gives up at 10 MiB or after a hundred rounds.  The descriptor comes from a cache, with the shift state
that the last call left in it.  `iconv` is a parameter; for a stateless conversion it does what its manual
says (`Documented`), and `convertEncoding_eq` is what comes out, for every input.
-/

namespace LuspUpload.Text

open Lib

/-- The values of `errno` that the code names. -/
inductive Errno where
  | success
  | eilseq
  | einval
  | e2big
  | eloop
  | ebadf
  | efault
  | eintr
  | enomem
  | other (code : ℤ)
  deriving DecidableEq, Repr

structure IConvResult where
  convResultStr : List UInt8 := []
  errorCode : Errno := .success
  errorMsg : String := ""
  deriving DecidableEq, Repr

/-- A conversion of the library, with shift states `σ`: `iconv` on an input with room for an output, and the
call that goes back to the initial state, with what it writes for that and `errno` when it fails. -/
structure Descriptor (σ : Type) where
  initial : σ
  iconv : σ → List UInt8 → ℕ → ConvertAnswer UInt8 UInt8 Errno × σ
  flush : σ → ℕ → (List UInt8 × Option Errno) × σ

/-- An `iconv_t`: a conversion in a shift state. -/
structure IconvT (σ : Type) where
  descriptor : Descriptor σ
  state : σ

/-- `GetIconvErrorString`; `message` is that of the generic category. -/
def getIconvErrorString (message : Errno → String) : Errno → String
  | .eilseq => "Invalid multibyte sequence"
  | .einval => "Incomplete multibyte sequence"
  | .e2big => "Output buffer too small"
  | .ebadf => "Invalid conversion descriptor"
  | .efault => "Invalid buffer address"
  | .eintr => "Conversion interrupted by signal"
  | .enomem => "Out of memory"
  | e => message e

def maxIterations : ℕ := 100

/-- 10 MiB. -/
def maxBufferSize : ℕ := 1048576 * 10

/-- The variables of the loop; `result.convResultStr` is still empty. -/
structure Conversion (σ : Type) where
  state : σ
  inbuf : List UInt8
  bufferSize : ℕ
  converted : List UInt8
  iterationCount : ℕ
  result : IConvResult

section Code

variable {σ : Type} (d : Descriptor σ) (message : Errno → String)

/-- A larger buffer, or none. -/
def Conversion.expand (s : Conversion σ) : Conversion σ × Bool :=
  if maxBufferSize ≤ s.bufferSize then
    ({ s with
        result := { s.result with errorCode := .e2big, errorMsg := "Output buffer size limit exceeded" } },
      false)
  else ({ s with bufferSize := s.bufferSize * 2 }, true)

/-- The body of the loop, and whether the loop goes on. -/
def convertRound (s : Conversion σ) : Conversion σ × Bool :=
  let r := d.iconv s.state s.inbuf s.bufferSize
  let a := r.1
  let outLeft := s.bufferSize - a.out.length
  let s := { s with state := r.2, inbuf := a.rest, converted := s.converted ++ a.out }
  match a.status with
  | .full =>
    -- an error of the limit is set after this
    Conversion.expand { s with result := { s.result with errorCode := .success, errorMsg := "" } }
  | .bad e =>
    ({ s with result := { s.result with errorCode := e, errorMsg := getIconvErrorString message e } },
      false)
  | .done => if outLeft < 128 ∧ s.inbuf ≠ [] then s.expand else (s, true)

/-- The loop, with the number of rounds that are still allowed. -/
def convertLoop : ℕ → Conversion σ → Conversion σ
  | 0, s => if s.inbuf = [] then s else { s with iterationCount := s.iterationCount + 1 }
  | n + 1, s =>
    if s.inbuf = [] then s
    else
      let r := convertRound d message { s with iterationCount := s.iterationCount + 1 }
      if r.2 then convertLoop n r.1 else r.1

/-- The call that writes a shift state, once the input is used up. -/
def convertFlush (s : Conversion σ) : Conversion σ :=
  if s.inbuf = [] ∧ s.result.errorCode = .success then
    let r := d.flush s.state s.bufferSize
    let s := { s with state := r.2, converted := s.converted ++ r.1.1 }
    match r.1.2 with
    | none => s
    | some e =>
      { s with result := { s.result with errorCode := e, errorMsg := getIconvErrorString message e } }
  else s

/-- The check of the hundred rounds, and the result. -/
def convertResult (s : Conversion σ) : IConvResult :=
  let result :=
    if maxIterations ≤ s.iterationCount ∧ s.inbuf ≠ [] then
      { s.result with errorCode := .eloop, errorMsg := "Maximum conversion iterations exceeded" }
    else s.result
  if result.errorCode = .success then { result with convResultStr := s.converted } else result

/-- The first buffer. -/
def initialBufferSize (input : List UInt8) : ℕ := max 4096 (input.length * 2)

/-- The start of the loop. -/
def Conversion.start (state : σ) (input : List UInt8) : Conversion σ :=
  ⟨state, input, initialBufferSize input, [], 0, {}⟩

end Code

/-! ### The cache of descriptors -/

section Cache

variable {σ : Type}

/-- `m_iconvDescriptorCacheMapS`. -/
def DescriptorCache (σ : Type) : Type := List UInt8 → Option (IconvT σ)

def DescriptorCache.empty : DescriptorCache σ := fun _ => none

/-- An entry is added, or is in another state now. -/
def DescriptorCache.put (cache : DescriptorCache σ) (key : List UInt8) (cd : IconvT σ) :
    DescriptorCache σ :=
  fun k => if k = key then some cd else cache k

/-- The two names with a `>` between. -/
def cacheKey (fromcode tocode : List UInt8) : List UInt8 := fromcode ++ 0x3E :: tocode

variable (iconvOpen : List UInt8 → List UInt8 → Except Errno (Descriptor σ)) (message : Errno → String)

/-- `GetIconvDescriptor`; `iconvOpen` has `errno` when it fails. -/
def getIconvDescriptor (cache : DescriptorCache σ) (fromcode tocode : List UInt8) :
    Except Errno (IconvT σ) × DescriptorCache σ :=
  match cache (cacheKey fromcode tocode) with
  | some cd => (.ok cd, cache)
  | none =>
    match iconvOpen tocode fromcode with
    | .error e => (.error e, cache)
    | .ok d => (.ok ⟨d, d.initial⟩, cache.put (cacheKey fromcode tocode) ⟨d, d.initial⟩)

/-- `ConvertEncoding`, with the cache after it.  A null pointer is `none`. -/
def convertEncoding (cache : DescriptorCache σ) (input : List UInt8)
    (fromEncoding toEncoding : Option (List UInt8)) :
    IConvResult × DescriptorCache σ :=
  match fromEncoding, toEncoding with
  | some fromcode, some tocode =>
    if input = [] then (⟨[], .success, "Input is empty"⟩, cache)
    else
      match getIconvDescriptor iconvOpen cache fromcode tocode with
      | (.error e, cache) => (⟨[], e, getIconvErrorString message e⟩, cache)
      | (.ok cd, cache) =>
        let s := convertFlush cd.descriptor message
          (convertLoop cd.descriptor message maxIterations (.start cd.state input))
        -- the descriptor in the cache has been used
        (convertResult s, cache.put (cacheKey fromcode tocode) ⟨cd.descriptor, s.state⟩)
  | _, _ => (⟨[], .einval, "Invalid encoding parameters"⟩, cache)

end Cache

/-- What `iconv` is documented to do for the conversion `C`, which has no shift state. -/
structure Documented {σ : Type} (C : Codec UInt8 UInt8 Errno) (d : Descriptor σ) : Prop where
  answers : ∀ state input room, C.Answers input room (d.iconv state input room).1
  flushes : ∀ state room, (d.flush state room).1 = ([], none)

/-- A descriptor that does. -/
def descriptorOf (C : Codec UInt8 UInt8 Errno) : Descriptor Unit where
  initial := ()
  iconv _ input room := (C.convert input.length input room, ())
  flush _ _ := (([], none), ())

theorem descriptorOf_documented (C : Codec UInt8 UInt8 Errno) : Documented C (descriptorOf C) where
  answers _ input room := C.answers_convert input.length input room (le_refl _)
  flushes _ _ := rfl

/-- A conversion with errors that are errors, in which no character becomes more than four times as long. -/
structure Modest (C : Codec UInt8 UInt8 Errno) : Prop where
  errors : ∀ input e, C.next input = .error e → e ≠ .success
  ratio : ∀ input k out, C.next input = .ok (k, out) → out.length ≤ 4 * k

section Loop

variable {σ : Type} {C : Codec UInt8 UInt8 Errno} {d : Descriptor σ} {message : Errno → String}
  {s : Conversion σ}
  {outs : List (List UInt8)} {rest : List UInt8}

theorem convertLoop_nil (n : ℕ) (h : s.inbuf = []) : convertLoop d message n s = s := by
  cases n <;> simp [convertLoop, h]

/-- One round with enough room: the input is used up, or a bad character is in front. -/
theorem convertRound_whole (hdoc : Documented C d) (hreads : C.Reads s.inbuf outs rest)
    (hstops : C.Stops rest)
    (hroom : outs.flatten.length ≤ s.bufferSize) : ∃ state,
    (rest = [] → convertRound d message s =
      ({ s with state := state, inbuf := [], converted := s.converted ++ outs.flatten }, true)) ∧
    ∀ e, rest ≠ [] → C.next rest = .error e → convertRound d message s =
      (⟨state, rest, s.bufferSize, s.converted ++ outs.flatten, s.iterationCount,
        { s.result with errorCode := e, errorMsg := getIconvErrorString message e }⟩, false) := by
  have ha := hdoc.answers s.state s.inbuf s.bufferSize
  obtain ⟨hout, hrest, hfull, hdone⟩ := ha.whole hreads hstops hroom
  refine ⟨(d.iconv s.state s.inbuf s.bufferSize).2, ?_, ?_⟩
  · intro hnil
    simp [convertRound, hdone.mp hnil, hout, hrest, hnil]
  · intro e hne herror
    cases hstatus : (d.iconv s.state s.inbuf s.bufferSize).1.status with
    | done => exact absurd (hdone.mpr hstatus) hne
    | full => exact absurd hstatus hfull
    | bad e' =>
      have herror' := (ha.bad e' hstatus).2
      rw [hrest, herror] at herror'
      obtain rfl := Except.error.inj herror'
      simp [convertRound, hstatus, hout, hrest]

/-- One round with too little room: a larger buffer, or the end. -/
theorem convertRound_part (hdoc : Documented C d) (hreads : C.Reads s.inbuf outs rest)
    (hstops : C.Stops rest)
    (hroom : s.bufferSize < outs.flatten.length) : ∃ state inbuf first more,
    inbuf ≠ [] ∧ C.Reads inbuf more rest ∧ outs.flatten = first ++ more.flatten ∧
      convertRound d message s = Conversion.expand ⟨state, inbuf, s.bufferSize, s.converted ++ first,
        s.iterationCount, { s.result with errorCode := .success, errorMsg := "" }⟩ := by
  have ha := hdoc.answers s.state s.inbuf s.bufferSize
  obtain ⟨hfull, hne, more, hmore, hsplit⟩ := ha.part hreads hstops hroom
  exact ⟨(d.iconv s.state s.inbuf s.bufferSize).2, _, _, more, hne, hmore,
    hsplit, by simp [convertRound, hfull]⟩

/-- The loop with enough room: one round. -/
theorem convertLoop_whole (hdoc : Documented C d) (n : ℕ) (hne : s.inbuf ≠ [])
    (hreads : C.Reads s.inbuf outs rest) (hstops : C.Stops rest)
      (hroom : outs.flatten.length ≤ s.bufferSize) :
    ∃ state,
    (rest = [] → convertLoop d message (n + 1) s =
      ⟨state, [], s.bufferSize, s.converted ++ outs.flatten, s.iterationCount + 1, s.result⟩) ∧
    ∀ e, rest ≠ [] → C.next rest = .error e → convertLoop d message (n + 1) s =
      ⟨state, rest, s.bufferSize, s.converted ++ outs.flatten, s.iterationCount + 1,
        { s.result with errorCode := e, errorMsg := getIconvErrorString message e }⟩ := by
  obtain ⟨state, hend, hbad⟩ := @convertRound_whole σ C d message
    { s with iterationCount := s.iterationCount + 1 } outs rest hdoc hreads hstops hroom
  refine ⟨state, ?_, ?_⟩
  · intro hnil
    rw [convertLoop, if_neg hne, hend hnil]
    exact convertLoop_nil n rfl
  · intro e hleft herror
    rw [convertLoop, if_neg hne, hbad e hleft herror]
    rfl

/-- The loop, unless the buffer is too small and may not grow: at most two rounds, for a conversion is at
most four times as long as its input and the first buffer twice as long. -/
theorem convertLoop_eq (hdoc : Documented C d) (hmodest : Modest C) (state : σ) {input : List UInt8}
    (hne : input ≠ []) (hreads : C.Reads input outs rest) (hstops : C.Stops rest)
    (hgrows : initialBufferSize input < outs.flatten.length → initialBufferSize input < maxBufferSize) :
    ∃ state' size count, count ≤ 2 ∧
      (rest = [] → convertLoop d message maxIterations (.start state input) =
        ⟨state', [], size, outs.flatten, count, {}⟩) ∧
      ∀ e, rest ≠ [] → C.next rest = .error e → convertLoop d message maxIterations (.start state input) =
        ⟨state', rest, size, outs.flatten, count, ⟨[], e, getIconvErrorString message e⟩⟩ := by
  by_cases hroom : outs.flatten.length ≤ initialBufferSize input
  · obtain ⟨state', hend, hbad⟩ :=
      @convertLoop_whole σ C d message (.start state input) outs rest hdoc 99 hne hreads hstops hroom
    exact ⟨state', initialBufferSize input, 1, by decide, hend, hbad⟩
  · rw [not_le] at hroom
    obtain ⟨state₁, inbuf, first, more, hleft, hmore, hsplit, hround⟩ := @convertRound_part σ C d message
      { Conversion.start state input with iterationCount := 1 } outs rest hdoc hreads hstops hroom
    have hsize : ¬ maxBufferSize ≤ initialBufferSize input := not_le.mpr (hgrows hroom)
    have hnext : convertLoop d message maxIterations (.start state input) =
        convertLoop d message 99 ⟨state₁, inbuf, initialBufferSize input * 2, first, 1, {}⟩ := by
      show convertLoop d message (99 + 1) ⟨state, input, initialBufferSize input, [], 0, {}⟩ = _
      rw [convertLoop, if_neg hne]
      simp only [Conversion.start, Nat.zero_add] at hround ⊢
      rw [hround, Conversion.expand, if_neg hsize]
      simp
    have hrest : more.flatten.length ≤ initialBufferSize input * 2 := by
      have hlength := hreads.length_le hmodest.ratio
      rw [hsplit, List.length_append] at hlength
      rw [initialBufferSize]
      omega
    obtain ⟨state', hend, hbad⟩ := @convertLoop_whole σ C d message
      ⟨state₁, inbuf, initialBufferSize input * 2, first, 1, {}⟩ more rest hdoc 98 hleft hmore hstops hrest
    refine ⟨state', initialBufferSize input * 2, 2, by decide, ?_, ?_⟩
    · intro hnil
      rw [hnext, hend hnil, hsplit]
    · intro e hbehind herror
      rw [hnext, hbad e hbehind herror, hsplit]

/-- The loop when the buffer is too small and may not grow. -/
theorem convertLoop_limit (hdoc : Documented C d) (state : σ) {input : List UInt8} (hne : input ≠ [])
    (hreads : C.Reads input outs rest) (hstops : C.Stops rest)
    (hroom : initialBufferSize input < outs.flatten.length)
      (hlimit : maxBufferSize ≤ initialBufferSize input) :
    ∃ state' inbuf converted, inbuf ≠ [] ∧ convertLoop d message maxIterations (.start state input) =
      ⟨state', inbuf, initialBufferSize input, converted, 1,
        ⟨[], .e2big, "Output buffer size limit exceeded"⟩⟩ := by
  obtain ⟨state', inbuf, first, more, hleft, -, -, hround⟩ := @convertRound_part σ C d message
    { Conversion.start state input with iterationCount := 1 } outs rest hdoc hreads hstops hroom
  refine ⟨state', inbuf, first, hleft, ?_⟩
  show convertLoop d message (99 + 1) ⟨state, input, initialBufferSize input, [], 0, {}⟩ = _
  rw [convertLoop, if_neg hne]
  simp only [Conversion.start, Nat.zero_add] at hround ⊢
  rw [hround, Conversion.expand, if_pos hlimit]
  simp

end Loop

section Result

variable {σ : Type} {C : Codec UInt8 UInt8 Errno} {message : Errno → String} {cd : IconvT σ}
  {iconvOpen : List UInt8 → List UInt8 → Except Errno (Descriptor σ)} {cache : DescriptorCache σ}
  {fromcode tocode input : List UInt8} {outs : List (List UInt8)} {rest : List UInt8}

theorem convertEncoding_open (hget : (getIconvDescriptor iconvOpen cache fromcode tocode).1 = .ok cd)
    (hne : input ≠ []) :
    (convertEncoding iconvOpen message cache input (some fromcode) (some tocode)).1 =
      convertResult (convertFlush cd.descriptor message
        (convertLoop cd.descriptor message maxIterations (.start cd.state input))) := by
  cases hpair : getIconvDescriptor iconvOpen cache fromcode tocode with
  | mk r cache' =>
    rw [hpair] at hget
    obtain rfl : r = .ok cd := hget
    simp only [convertEncoding, if_neg hne, hpair]

/-- The first buffer is too small and may not grow. -/
theorem convertEncoding_limit (hdoc : Documented C cd.descriptor)
    (hget : (getIconvDescriptor iconvOpen cache fromcode tocode).1 = .ok cd)
    (hne : input ≠ []) (hreads : C.Reads input outs rest) (hstops : C.Stops rest)
    (hroom : initialBufferSize input < outs.flatten.length)
      (hlimit : maxBufferSize ≤ initialBufferSize input) :
    (convertEncoding iconvOpen message cache input (some fromcode) (some tocode)).1 =
      ⟨[], .e2big, "Output buffer size limit exceeded"⟩ := by
  obtain ⟨state', inbuf, converted, hleft, hfull⟩ :=
    @convertLoop_limit σ C cd.descriptor message outs rest hdoc cd.state input hne hreads hstops hroom
      hlimit
  rw [convertEncoding_open hget hne, hfull]
  simp [convertFlush, convertResult, hleft, maxIterations]

/-- Everything is converted, up to the end or to a bad character. -/
theorem convertEncoding_whole (hdoc : Documented C cd.descriptor) (hmodest : Modest C)
    (hget : (getIconvDescriptor iconvOpen cache fromcode tocode).1 = .ok cd) (hne : input ≠ [])
    (hreads : C.Reads input outs rest) (hstops : C.Stops rest)
    (hgrows : initialBufferSize input < outs.flatten.length → initialBufferSize input < maxBufferSize) :
    (rest = [] → (convertEncoding iconvOpen message cache input (some fromcode) (some tocode)).1 =
      ⟨outs.flatten, .success, ""⟩) ∧
    ∀ e, rest ≠ [] → C.next rest = .error e →
      (convertEncoding iconvOpen message cache input (some fromcode) (some tocode)).1 =
        ⟨[], e, getIconvErrorString message e⟩ := by
  obtain ⟨state', size, count, hcount, hend, hbad⟩ :=
    @convertLoop_eq σ C cd.descriptor message outs rest hdoc hmodest cd.state input hne hreads hstops hgrows
  refine ⟨?_, ?_⟩
  · intro hnil
    have hflush : (cd.descriptor.flush state' size).1 = ([], none) := hdoc.flushes state' size
    rw [convertEncoding_open hget hne, hend hnil]
    simp [convertFlush, convertResult, hflush]
  · intro e hbehind herror
    have hcode : e ≠ .success := hmodest.errors rest e herror
    have hfew : ¬ maxIterations ≤ count := by
      show ¬ 100 ≤ count
      omega
    rw [convertEncoding_open hget hne, hbad e hbehind herror]
    simp [convertFlush, convertResult, hcode, hfew]

end Result

/-- **What `ConvertEncoding` gives** — for every input that is not empty, in whatever state its descriptor
is, with `outs` the conversions of its characters up to its end or to the first bad one: the error of the
limit, if the first buffer is too small for them and as large as it may be; else the whole conversion, or
the error of the bad character and no text.  The hundred rounds are never used up. -/
theorem convertEncoding_eq {σ : Type} {C : Codec UInt8 UInt8 Errno} {cd : IconvT σ}
    (hdoc : Documented C cd.descriptor) (hmodest : Modest C)
    {iconvOpen : List UInt8 → List UInt8 → Except Errno (Descriptor σ)} {cache : DescriptorCache σ}
    {fromcode tocode : List UInt8} (hget : (getIconvDescriptor iconvOpen cache fromcode tocode).1 = .ok cd)
    (message : Errno → String) {input : List UInt8} (hne : input ≠ []) {outs : List (List UInt8)}
    {rest : List UInt8} (hreads : C.Reads input outs rest) (hstops : C.Stops rest) {result : IConvResult}
    (hresult : (convertEncoding iconvOpen message cache input (some fromcode) (some tocode)).1 = result) :
    (initialBufferSize input < outs.flatten.length ∧ maxBufferSize ≤ initialBufferSize input →
      result = ⟨[], .e2big, "Output buffer size limit exceeded"⟩) ∧
    (¬ (initialBufferSize input < outs.flatten.length ∧ maxBufferSize ≤ initialBufferSize input) →
      (rest = [] → result = ⟨outs.flatten, .success, ""⟩) ∧
        ∀ e, rest ≠ [] → C.next rest = .error e → result = ⟨[], e, getIconvErrorString message e⟩) := by
  subst hresult
  refine ⟨?_, ?_⟩
  · rintro ⟨hroom, hlimit⟩
    exact convertEncoding_limit hdoc hget hne hreads hstops hroom hlimit
  · intro hlimit
    exact convertEncoding_whole hdoc hmodest hget hne hreads hstops
      fun hroom => not_le.mp fun hmax => hlimit ⟨hroom, hmax⟩

/-- ISO-8859-1 to UTF-32LE: a byte is its code point. -/
def latin1Codec : Codec UInt8 UInt8 Errno where
  next
    | [] => .error .einval
    | b :: _ => .ok (1, [b, 0, 0, 0])
  next_size input k out h := by
    cases input with
    | nil => cases h
    | cons b bs =>
      obtain ⟨rfl, -⟩ := Prod.mk.inj (Except.ok.inj h)
      exact ⟨Nat.one_pos, by simp⟩

theorem latin1_modest : Modest latin1Codec where
  errors input e h := by
    cases input with
    | nil =>
      obtain rfl := Except.error.inj h
      simp
    | cons b bs => cases h
  ratio input k out h := by
    cases input with
    | nil => cases h
    | cons b bs =>
      obtain ⟨rfl, rfl⟩ := Prod.mk.inj (Except.ok.inj h)
      exact le_refl 4

theorem latin1_reads (input : List UInt8) :
    latin1Codec.Reads input (input.map fun b => [b, 0, 0, 0]) [] := by
  induction input with
  | nil => exact .stop []
  | cons b bs ih => exact .char rfl ih

/-- `iconv_open` with these two encodings. -/
def latin1System (tocode fromcode : List UInt8) : Except Errno (Descriptor Unit) :=
  if fromcode = utf8Bytes "ISO-8859-1".toList ∧ tocode = utf8Bytes "UTF-32LE".toList
    then .ok (descriptorOf latin1Codec)
  else .error .einval

/-- Two thousand letters outgrow the first buffer. -/
theorem convertEncoding_latin1 :
    initialBufferSize (List.replicate 2000 0xE9) < 8000 ∧
    (convertEncoding latin1System (fun _ => "") .empty (List.replicate 2000 0xE9)
      (some (utf8Bytes "ISO-8859-1".toList)) (some (utf8Bytes "UTF-32LE".toList))).1 =
        ⟨(List.replicate 2000 [0xE9, 0, 0, 0]).flatten, .success, ""⟩ := by
  have hsize : initialBufferSize (List.replicate 2000 0xE9) = 4096 := by
    rw [initialBufferSize, List.length_replicate]
    rfl
  have hne : List.replicate 2000 (0xE9 : UInt8) ≠ [] := List.ne_nil_of_length_pos (by
    rw [List.length_replicate]
    decide)
  have hconvert := @convertEncoding_eq Unit latin1Codec ⟨descriptorOf latin1Codec, ()⟩
    (descriptorOf_documented latin1Codec) latin1_modest latin1System .empty
    (utf8Bytes "ISO-8859-1".toList) (utf8Bytes "UTF-32LE".toList) rfl (fun _ => "")
    (List.replicate 2000 0xE9) hne _ [] (latin1_reads _) (Or.inl rfl) _ rfl
  rw [List.map_replicate] at hconvert
  refine ⟨by rw [hsize]; decide, (hconvert.2 fun hlimit => ?_).1 rfl⟩
  have hmax := hlimit.2
  rw [hsize] at hmax
  exact absurd hmax (by decide)

end LuspUpload.Text
