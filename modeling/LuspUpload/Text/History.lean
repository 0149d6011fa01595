import LuspUpload.Lib.CodePage
import LuspUpload.Lib.Runs
import LuspUpload.Text.ConvertEncoding

/-!
# Text.History — one conversion after another

The calls of `ConvertEncoding` share the descriptors of the cache.  A descriptor stays what `iconv_open`
made for its two names (`Opened`).  A call that succeeds takes it back to its initial state, a call that
fails leaves it in the state that it had reached: after any history whose calls with the same names
succeeded a call gives what a first call gives (`result_of_clean_history`).
-/

namespace LuspUpload.Text

open Lib

/-- A call of `ConvertEncoding`. -/
structure ConvertCall where
  input : List UInt8
  fromEncoding : Option (List UInt8)
  toEncoding : Option (List UInt8)
  deriving DecidableEq, Repr

/-- The key of its descriptor. -/
def ConvertCall.key (call : ConvertCall) : Option (List UInt8) :=
  call.fromEncoding.bind fun fromcode => call.toEncoding.map (cacheKey fromcode)

/-- What `iconv` is documented to do about the shift state: the call that goes back goes to the initial
state, and an error has a number. -/
structure Resets {σ : Type} (d : Descriptor σ) : Prop where
  initial : ∀ state room, (d.flush state room).1.2 = none → (d.flush state room).2 = d.initial
  flush_error : ∀ state room, (d.flush state room).1.2 ≠ some .success
  iconv_error : ∀ state input room, (d.iconv state input room).1.status ≠ .bad .success

section History

variable {σ : Type} (iconvOpen : List UInt8 → List UInt8 → Except Errno (Descriptor σ))
  (message : Errno → String)

/-- A call on the descriptors of a cache. -/
def ConvertCall.convert (cache : DescriptorCache σ) (call : ConvertCall) :
    IConvResult × DescriptorCache σ :=
  convertEncoding iconvOpen message cache call.input call.fromEncoding call.toEncoding

/-- The conversions of a process, one after another. -/
def converter : Machine (DescriptorCache σ) ConvertCall (ConvertCall × IConvResult) where
  step cache call := some ((call.convert iconvOpen message cache).2,
    [(call, (call.convert iconvOpen message cache).1)])

end History

section Loop

variable {σ : Type} {d : Descriptor σ} {message : Errno → String} {s : Conversion σ}

theorem Conversion.expand_false (h : s.expand.2 = false) : s.expand.1.result.errorCode ≠ .success := by
  unfold Conversion.expand at h ⊢
  split_ifs at h ⊢
  simp

/-- A round that ends the loop has an error. -/
theorem convertRound_false (hresets : Resets d) (h : (convertRound d message s).2 = false) :
    (convertRound d message s).1.result.errorCode ≠ .success := by
  unfold convertRound at h ⊢
  cases hstatus : (d.iconv s.state s.inbuf s.bufferSize).1.status with
  | done =>
    simp only [hstatus] at h ⊢
    split_ifs at h ⊢
    exact Conversion.expand_false h
  | full =>
    simp only [hstatus] at h ⊢
    exact Conversion.expand_false h
  | bad e =>
    simp only [hstatus]
    rintro rfl
    exact hresets.iconv_error _ _ _ hstatus

theorem convertRound_count (s : Conversion σ) :
    (convertRound d message s).1.iterationCount = s.iterationCount := by
  have hexpand : ∀ s : Conversion σ, s.expand.1.iterationCount = s.iterationCount := by
    intro s
    unfold Conversion.expand
    split_ifs <;> rfl
  unfold convertRound
  cases hstatus : (d.iconv s.state s.inbuf s.bufferSize).1.status with
  | done =>
    simp only [hstatus]
    split_ifs
    · rw [hexpand]
    · rfl
  | full => simp only [hstatus, hexpand]
  | bad e => simp only [hstatus]

/-- How the loop ends: with the input used up, an error, or too many rounds. -/
theorem convertLoop_end (hresets : Resets d) {n : ℕ} (hcount : s.iterationCount + n = maxIterations) :
    (convertLoop d message n s).inbuf = [] ∨ (convertLoop d message n s).result.errorCode ≠ .success ∨
      maxIterations ≤ (convertLoop d message n s).iterationCount := by
  induction n generalizing s with
  | zero =>
    by_cases hnil : s.inbuf = []
    · rw [convertLoop_nil 0 hnil]
      exact Or.inl hnil
    · rw [convertLoop, if_neg hnil]
      exact Or.inr (Or.inr (by show _ ≤ s.iterationCount + 1; omega))
  | succ n ih =>
    by_cases hnil : s.inbuf = []
    · rw [convertLoop_nil (n + 1) hnil]
      exact Or.inl hnil
    · rw [convertLoop, if_neg hnil]
      by_cases hgoes : (convertRound d message { s with iterationCount := s.iterationCount + 1 }).2 = true
      · rw [if_pos hgoes]
        refine ih ?_
        rw [convertRound_count]
        show s.iterationCount + 1 + n = _
        omega
      · rw [if_neg hgoes]
        exact Or.inr (Or.inl (convertRound_false hresets (Bool.eq_false_iff.mpr hgoes)))

/-- A conversion that succeeds ends in the initial state. -/
theorem state_of_success (hresets : Resets d) {state : σ} {input : List UInt8}
    (h : (convertResult (convertFlush d message
      (convertLoop d message maxIterations (.start state input)))).errorCode = .success) :
    (convertFlush d message (convertLoop d message maxIterations (.start state input))).state =
      d.initial := by
  have hend := @convertLoop_end σ d message (.start state input) hresets maxIterations (Nat.zero_add _)
  revert h hend
  generalize convertLoop d message maxIterations (.start state input) = s
  intro h hend
  by_cases hflush : s.inbuf = [] ∧ s.result.errorCode = .success
  · cases herror : (d.flush s.state s.bufferSize).1.2 with
    | none =>
      rw [convertFlush, if_pos hflush]
      simp only [herror]
      exact hresets.initial _ _ herror
    | some e =>
      rw [convertFlush, if_pos hflush] at h
      have hzero : e = .success := by
        by_contra hne
        simp [herror, convertResult, hflush.1, hne] at h
      exact absurd (hzero ▸ herror) (hresets.flush_error _ _)
  · -- without the call there is an error
    refine absurd h ?_
    rw [convertFlush, if_neg hflush, convertResult]
    by_cases hloop : maxIterations ≤ s.iterationCount ∧ s.inbuf ≠ []
    · simp [hloop]
    · have herror : s.result.errorCode ≠ .success := by
        rcases hend with hnil | herror | hmany
        · exact fun hzero => hflush ⟨hnil, hzero⟩
        · exact herror
        · by_cases hnil : s.inbuf = []
          · exact fun hzero => hflush ⟨hnil, hzero⟩
          · exact absurd ⟨hmany, hnil⟩ hloop
      simp [hloop, herror]

end Loop

/-! ### Histories -/

theorem cacheKey_injective {fromcode tocode fromcode' tocode' : List UInt8} (hfrom : 0x3E ∉ fromcode)
    (hto : 0x3E ∉ tocode) (h : cacheKey fromcode tocode = cacheKey fromcode' tocode') :
    fromcode = fromcode' ∧ tocode = tocode' := by
  unfold cacheKey at h
  induction fromcode generalizing fromcode' with
  | nil =>
    cases fromcode' with
    | nil => exact ⟨rfl, List.tail_eq_of_cons_eq h⟩
    | cons b bs =>
      obtain ⟨rfl, rfl⟩ := List.cons.inj h
      exact absurd (List.mem_append_right bs List.mem_cons_self) hto
  | cons b bs ih =>
    rw [List.mem_cons, not_or] at hfrom
    cases fromcode' with
    | nil => exact absurd (List.cons.inj h).1.symm hfrom.1
    | cons b' bs' =>
      obtain ⟨rfl, htail⟩ := List.cons.inj h
      obtain ⟨rfl, rfl⟩ := ih hfrom.2 htail
      exact ⟨rfl, rfl⟩

section Histories

variable {σ : Type} {iconvOpen : List UInt8 → List UInt8 → Except Errno (Descriptor σ)}
  {message : Errno → String} {cache cache' : DescriptorCache σ} {call : ConvertCall} {key : List UInt8}
  {cd : IconvT σ} {results : List (ConvertCall × IConvResult)}

theorem DescriptorCache.put_put (cache : DescriptorCache σ) (key : List UInt8) (cd cd' : IconvT σ) :
    (cache.put key cd).put key cd' = cache.put key cd' := by
  funext k
  unfold DescriptorCache.put
  split_ifs <;> rfl

/-- What `GetIconvDescriptor` finds: the descriptor of the cache, or a new one. -/
def Found (iconvOpen : List UInt8 → List UInt8 → Except Errno (Descriptor σ)) (cache : DescriptorCache σ)
    (fromcode tocode : List UInt8) (cd : IconvT σ) : Prop :=
  cache (cacheKey fromcode tocode) = some cd ∨ cache (cacheKey fromcode tocode) = none ∧
    iconvOpen tocode fromcode = .ok cd.descriptor ∧ cd.state = cd.descriptor.initial

theorem getIconvDescriptor_ok {fromcode tocode : List UInt8}
    (h : getIconvDescriptor iconvOpen cache fromcode tocode = (.ok cd, cache')) :
    Found iconvOpen cache fromcode tocode cd ∧
      ∀ cd', cache'.put (cacheKey fromcode tocode) cd' = cache.put (cacheKey fromcode tocode) cd' := by
  unfold getIconvDescriptor at h
  cases hfound : cache (cacheKey fromcode tocode) with
  | some cd₀ =>
    simp only [hfound] at h
    obtain ⟨hcd, rfl⟩ := Prod.mk.inj h
    obtain rfl := Except.ok.inj hcd
    exact ⟨Or.inl hfound, fun _ => rfl⟩
  | none =>
    cases hopen : iconvOpen tocode fromcode with
    | error e => simp [hfound, hopen] at h
    | ok d =>
      simp only [hfound, hopen] at h
      obtain ⟨hcd, rfl⟩ := Prod.mk.inj h
      obtain rfl := Except.ok.inj hcd
      exact ⟨Or.inr ⟨hfound, hopen, rfl⟩, fun _ => DescriptorCache.put_put _ _ _ _⟩

theorem getIconvDescriptor_error {fromcode tocode : List UInt8} {e : Errno}
    (h : getIconvDescriptor iconvOpen cache fromcode tocode = (.error e, cache')) : cache' = cache := by
  unfold getIconvDescriptor at h
  cases hfound : cache (cacheKey fromcode tocode) with
  | some cd => simp [hfound] at h
  | none =>
    cases hopen : iconvOpen tocode fromcode with
    | error e => exact (by simpa [hfound, hopen] using h : _ ∧ cache = cache').2.symm
    | ok d => simp [hfound, hopen] at h

/-- What a call does to the cache: nothing, or one descriptor is in another state. -/
theorem convert_cases (cache : DescriptorCache σ) (call : ConvertCall) :
    (call.convert iconvOpen message cache).2 = cache ∨ ∃ fromcode tocode cd,
      call.fromEncoding = some fromcode ∧ call.toEncoding = some tocode ∧
      Found iconvOpen cache fromcode tocode cd ∧
      (call.convert iconvOpen message cache).1 = convertResult (convertFlush cd.descriptor message
        (convertLoop cd.descriptor message maxIterations (.start cd.state call.input))) ∧
      (call.convert iconvOpen message cache).2 = cache.put (cacheKey fromcode tocode)
        ⟨cd.descriptor, (convertFlush cd.descriptor message
          (convertLoop cd.descriptor message maxIterations (.start cd.state call.input))).state⟩ := by
  obtain ⟨input, fromEncoding, toEncoding⟩ := call
  cases fromEncoding with
  | none => exact Or.inl rfl
  | some fromcode =>
    cases toEncoding with
    | none => exact Or.inl rfl
    | some tocode =>
      simp only [ConvertCall.convert, convertEncoding]
      by_cases hnil : input = []
      · rw [if_pos hnil]
        exact Or.inl rfl
      · rw [if_neg hnil]
        cases hget : getIconvDescriptor iconvOpen cache fromcode tocode with
        | mk r cache₁ =>
          cases r with
          | error e => exact Or.inl (getIconvDescriptor_error hget)
          | ok cd =>
            obtain ⟨hfound, hput⟩ := getIconvDescriptor_ok hget
            exact Or.inr ⟨fromcode, tocode, cd, rfl, rfl, hfound, rfl, hput _⟩

/-- Each descriptor is what `iconv_open` made for two names with this key. -/
def Made (iconvOpen : List UInt8 → List UInt8 → Except Errno (Descriptor σ)) (cache : DescriptorCache σ) :
    Prop :=
  ∀ key cd, cache key = some cd →
    ∃ fromcode tocode, key = cacheKey fromcode tocode ∧ iconvOpen tocode fromcode = .ok cd.descriptor

/-- Each descriptor is in its initial state, unless a call on it failed. -/
def Clean (cache : DescriptorCache σ) (results : List (ConvertCall × IConvResult)) : Prop :=
  ∀ key cd, cache key = some cd → (∀ r ∈ results, r.1.key = some key → r.2.errorCode = .success) →
    cd.state = cd.descriptor.initial

theorem Found.made {fromcode tocode : List UInt8} (h : Found iconvOpen cache fromcode tocode cd)
    (hmade : Made iconvOpen cache) : ∃ fromcode' tocode',
      cacheKey fromcode tocode = cacheKey fromcode' tocode' ∧
      iconvOpen tocode' fromcode' = .ok cd.descriptor := by
  rcases h with hcache | ⟨-, hopen, -⟩
  · exact hmade _ _ hcache
  · exact ⟨fromcode, tocode, rfl, hopen⟩

theorem Made.convert (hmade : Made iconvOpen cache) (call : ConvertCall) :
    Made iconvOpen (call.convert iconvOpen message cache).2 := by
  rcases convert_cases cache call with hsame |
    ⟨fromcode, tocode, cd, -, -, hfound, -, hput⟩
  · rw [hsame]
    exact hmade
  · rw [hput]
    intro key cd' hkey
    unfold DescriptorCache.put at hkey
    split_ifs at hkey with heq
    · obtain rfl := Option.some.inj hkey
      rw [heq]
      exact hfound.made hmade
    · exact hmade key cd' hkey

theorem Clean.convert (hresets : ∀ fromcode tocode d, iconvOpen tocode fromcode = .ok d → Resets d)
    (hmade : Made iconvOpen cache) (hclean : Clean cache results) (call : ConvertCall) :
    Clean (call.convert iconvOpen message cache).2
      (results ++ [(call, (call.convert iconvOpen message cache).1)]) := by
  have hbefore : ∀ {key : List UInt8},
      (∀ r ∈ results ++ [(call, (call.convert iconvOpen message cache).1)],
        r.1.key = some key → r.2.errorCode = .success) →
      ∀ r ∈ results, r.1.key = some key → r.2.errorCode = .success :=
    fun hall r hr => hall r (List.mem_append_left _ hr)
  rcases convert_cases cache call with hsame |
    ⟨fromcode, tocode, cd, hfrom, hto, hfound, hresult, hput⟩
  · rw [hsame]
    exact fun key cd hkey hall => hclean key cd hkey (hbefore hall)
  · rw [hput]
    intro key cd' hkey hall
    unfold DescriptorCache.put at hkey
    split_ifs at hkey with heq
    · -- the descriptor of this call, which succeeded
      obtain rfl := Option.some.inj hkey
      obtain ⟨fromcode', tocode', -, hopen⟩ := hfound.made hmade
      have hkeys : call.key = some key := by rw [ConvertCall.key, hfrom, hto, heq]; rfl
      have hsuccess := hall _ (List.mem_append_right _ List.mem_cons_self) hkeys
      refine state_of_success (hresets _ _ _ hopen) ?_
      rw [← hresult]
      exact hsuccess
    · exact hclean key cd' hkey (hbefore hall)

theorem made_of_run {calls : List ConvertCall}
    (hrun : (converter iconvOpen message).run .empty calls = some (cache, results)) :
      Made iconvOpen cache := by
  refine Machine.Reaches.invariant (I := Made iconvOpen) ?_ ⟨calls, results, hrun⟩
    (fun key cd h => (by cases h))
  intro cache call cache' es hmade hstep
  obtain ⟨rfl, -⟩ := Prod.mk.inj (Option.some.inj hstep)
  exact hmade.convert call

theorem clean_of_run (hresets : ∀ fromcode tocode d, iconvOpen tocode fromcode = .ok d → Resets d)
    {calls : List ConvertCall} (hrun :
      (converter iconvOpen message).run .empty calls = some (cache, results)) :
    Clean cache results := by
  have hstart : Made iconvOpen (.empty : DescriptorCache σ) ∧ Clean (.empty : DescriptorCache σ) [] :=
    ⟨fun key cd h => (by cases h), fun key cd h => (by cases h)⟩
  have hstep : ∀ (cache : DescriptorCache σ) results call cache' es, Made iconvOpen cache ∧
      Clean cache results →
      True → (converter iconvOpen message).step cache call = some (cache', es) →
      Made iconvOpen cache' ∧ Clean cache' (results ++ es) := by
    rintro cache results call cache' es ⟨hmade, hclean⟩ - hstep
    obtain ⟨rfl, rfl⟩ := Prod.mk.inj (Option.some.inj hstep)
    exact ⟨hmade.convert call, hclean.convert hresets hmade call⟩
  have halong : (converter iconvOpen message).Along (fun _ _ => True) .empty calls :=
    Machine.along_of_forall (P := fun _ => True) (fun _ _ => trivial) _
  exact (halong.invariant hstep hstart hrun).2

/-- The descriptor of two names, in whatever state. -/
theorem Made.descriptor (hmade : Made iconvOpen cache) {fromcode tocode : List UInt8}
    (hfrom : 0x3E ∉ fromcode)
    (hto : 0x3E ∉ tocode) {d : Descriptor σ} (hopen : iconvOpen tocode fromcode = .ok d) :
    ∃ state, (getIconvDescriptor iconvOpen cache fromcode tocode).1 = .ok ⟨d, state⟩ := by
  unfold getIconvDescriptor
  cases hcache : cache (cacheKey fromcode tocode) with
  | none => exact ⟨d.initial, by simp [hopen]⟩
  | some cd =>
    obtain ⟨fromcode', tocode', hkey, hopen'⟩ := hmade _ _ hcache
    obtain ⟨rfl, rfl⟩ := cacheKey_injective hfrom hto hkey
    rw [hopen] at hopen'
    obtain rfl := Except.ok.inj hopen'
    exact ⟨cd.state, rfl⟩

/-- Two names that `iconv_open` does not know have no descriptor. -/
theorem Made.unknown (hmade : Made iconvOpen cache) {fromcode tocode : List UInt8}
    (hfrom : 0x3E ∉ fromcode) (hto : 0x3E ∉ tocode) {e : Errno} (hopen : iconvOpen tocode fromcode = .error e) :
    getIconvDescriptor iconvOpen cache fromcode tocode = (.error e, cache) := by
  unfold getIconvDescriptor
  cases hcache : cache (cacheKey fromcode tocode) with
  | none => simp [hopen]
  | some cd =>
    obtain ⟨fromcode', tocode', hkey, hopen'⟩ := hmade _ _ hcache
    obtain ⟨rfl, rfl⟩ := cacheKey_injective hfrom hto hkey
    rw [hopen] at hopen'
    cases hopen'

theorem convertEncoding_congr {fromcode tocode input : List UInt8}
    (h : (getIconvDescriptor iconvOpen cache fromcode tocode).1 =
      (getIconvDescriptor iconvOpen cache' fromcode tocode).1) :
    (convertEncoding iconvOpen message cache input (some fromcode) (some tocode)).1 =
      (convertEncoding iconvOpen message cache' input (some fromcode) (some tocode)).1 := by
  unfold convertEncoding
  by_cases hnil : input = []
  · simp [hnil]
  · cases hget : getIconvDescriptor iconvOpen cache fromcode tocode with
    | mk r cache₁ =>
      cases hget' : getIconvDescriptor iconvOpen cache' fromcode tocode with
      | mk r' cache₁' =>
        rw [hget, hget'] at h
        obtain rfl : r = r' := h
        cases r <;> simp [hnil, hget, hget']

end Histories

/-- **A call after successful ones** — a call of `ConvertEncoding` gives, after any history of calls in
which all calls with the same two names succeeded, what it gives in a new process; other calls may have
failed.  A name has no `>`. -/
theorem result_of_clean_history {σ : Type}
    {iconvOpen : List UInt8 → List UInt8 → Except Errno (Descriptor σ)}
    (hresets : ∀ fromcode tocode d, iconvOpen tocode fromcode = .ok d → Resets d) {message : Errno → String}
    {calls : List ConvertCall} {cache : DescriptorCache σ} {results : List (ConvertCall × IConvResult)}
    (hrun : (converter iconvOpen message).run .empty calls = some (cache, results)) {call : ConvertCall}
    (hfrom : ∀ name, call.fromEncoding = some name → 0x3E ∉ name)
    (hto : ∀ name, call.toEncoding = some name → 0x3E ∉ name)
    (hclean : ∀ r ∈ results, r.1.key = call.key → r.2.errorCode = .success) :
    (call.convert iconvOpen message cache).1 = (call.convert iconvOpen message .empty).1 := by
  obtain ⟨input, fromEncoding, toEncoding⟩ := call
  cases fromEncoding with
  | none => rfl
  | some fromcode =>
    cases toEncoding with
    | none => rfl
    | some tocode =>
      refine convertEncoding_congr ?_
      unfold getIconvDescriptor
      cases hcache : cache (cacheKey fromcode tocode) with
      | none =>
        simp only [DescriptorCache.empty]
        cases iconvOpen tocode fromcode <;> rfl
      | some cd =>
        obtain ⟨fromcode', tocode', hkey, hopen⟩ := made_of_run hrun _ _ hcache
        obtain ⟨rfl, rfl⟩ := cacheKey_injective (hfrom fromcode rfl) (hto tocode rfl) hkey
        have hstate := clean_of_run hresets hrun _ _ hcache hclean
        simp only [DescriptorCache.empty, hopen, ← hstate]

/-- ISO-2022-JP with two escape sequences and one character; the state tells whether pairs of bytes are
read. -/
def iso2022Convert : ℕ → Bool → List UInt8 → ℕ → ConvertAnswer UInt8 UInt8 Errno × Bool
  | _, pairs, [], _ => (⟨[], [], .done⟩, pairs)
  | 0, pairs, input, _ => (⟨[], input, .full⟩, pairs)
  | n + 1, _, 0x1B :: 0x24 :: 0x42 :: rest, room => iso2022Convert n true rest room
  | n + 1, _, 0x1B :: 0x28 :: 0x42 :: rest, room => iso2022Convert n false rest room
  | n + 1, false, b :: rest, room =>
    if 0x80 ≤ b.toNat then (⟨[], b :: rest, .bad .eilseq⟩, false)
    else if room < 2 then (⟨[], b :: rest, .full⟩, false)
    else
      let r := iso2022Convert n false rest (room - 2)
      (⟨b :: 0 :: r.1.out, r.1.rest, r.1.status⟩, r.2)
  | n + 1, true, 0x30 :: 0x21 :: rest, room =>
    if room < 2 then (⟨[], 0x30 :: 0x21 :: rest, .full⟩, true)
    else
      let r := iso2022Convert n true rest (room - 2)
      (⟨0x9C :: 0x4E :: r.1.out, r.1.rest, r.1.status⟩, r.2)
  | _ + 1, true, input, _ => (⟨[], input, .bad .eilseq⟩, true)

def iso2022 : Descriptor Bool where
  initial := false
  iconv pairs input room := iso2022Convert input.length pairs input room
  flush _ _ := (([], none), false)

theorem iso2022Convert_error (n : ℕ) (pairs : Bool) (input : List UInt8) (room : ℕ) :
    (iso2022Convert n pairs input room).1.status ≠ .bad .success := by
  fun_induction iso2022Convert n pairs input room
  all_goals first | assumption | (intro h; cases h)

theorem iso2022_resets : Resets iso2022 where
  initial _ _ _ := rfl
  flush_error _ _ h := by cases h
  iconv_error pairs input room := iso2022Convert_error input.length pairs input room

/-- The conversion of `input` from ISO-2022-JP to UTF-16LE. -/
def fromIso2022 (input : List UInt8) : ConvertCall :=
  ⟨input, some (utf8Bytes "ISO-2022-JP".toList), some (utf8Bytes "UTF-16LE".toList)⟩

/-- After a text that ends among the pairs of bytes, the same two bytes are two letters again. -/
theorem result_of_clean_history_iso2022 : ∃ cache results,
    (converter (fun _ _ => .ok iso2022) fun _ => "").run .empty
      [fromIso2022 [0x1B, 0x24, 0x42, 0x30, 0x21]] =
      some (cache, results) ∧
    ((fromIso2022 [0x30, 0x21]).convert (fun _ _ => .ok iso2022) (fun _ => "") cache).1 =
      ⟨[0x30, 0, 0x21, 0], .success, ""⟩ := by
  refine ⟨_, _, rfl, ?_⟩
  have hresets : ∀ (fromcode tocode : List UInt8) d, Except.ok (ε := Errno) iso2022 = .ok d → Resets d := by
    rintro fromcode tocode d ⟨⟩
    exact iso2022_resets
  rw [@result_of_clean_history Bool (fun _ _ => .ok iso2022) hresets (fun _ => "")
    [fromIso2022 [0x1B, 0x24, 0x42, 0x30, 0x21]] _ _ rfl (fromIso2022 [0x30, 0x21])]
  · decide +kernel
  · rintro name ⟨⟩
    decide +kernel
  · rintro name ⟨⟩
    decide +kernel
  · rintro r hr -
    obtain rfl := List.mem_singleton.mp hr
    decide +kernel

/-- After an illegal one they are one character. -/
example : ((fromIso2022 [0x30, 0x21]).convert (fun _ _ => .ok iso2022) (fun _ => "")
    ((fromIso2022 [0x1B, 0x24, 0x42, 0xFF]).convert (fun _ _ => .ok iso2022) (fun _ => "") .empty).2).1 =
      ⟨[0x9C, 0x4E], .success, ""⟩ := by decide +kernel

end LuspUpload.Text
