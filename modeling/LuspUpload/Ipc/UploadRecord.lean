import LuspUpload.Ipc.Demux
import LuspUpload.Lib.CodePage

/-!
# Ipc.UploadRecord — an upload record into a buffer and back

`ToFlatBuffer` writes the four UTF-16 strings as UTF-8; `FromFlatBuffer` reads them with
`ToUtf16LEFromLocale`, which takes the bytes for text in the system code page.  The other nine fields pass
through casts and come back as they were, `enqueueTime` cut to milliseconds.

`round_trip_iff` : the record comes back if and only if the code page is UTF-8 or the four strings are
ASCII.
-/

namespace LuspUpload.Upload

/-- `static_cast` from `int`; `none` for a value without an enumerator. -/
def UploadFileTyped.ofNat? : ℕ → Option UploadFileTyped
  | 0 => some document
  | 1 => some image
  | 2 => some video
  | 3 => some audio
  | 4 => some archive
  | 5 => some code
  | 6 => some undefined
  | _ => none

def FileExistPolicy.ofNat? : ℕ → Option FileExistPolicy
  | 0 => some overwrite
  | 1 => some skip
  | 2 => some rename
  | 3 => some undefined
  | _ => none

def UploadStatusInf.ofNat? : ℕ → Option UploadStatusInf
  | 0 => some completed
  | 1 => some pending
  | 2 => some uploading
  | 3 => some rejected
  | 4 => some failed
  | 5 => some undefined
  | _ => none

@[simp] theorem UploadFileTyped.ofNat?_toNat (x : UploadFileTyped) : ofNat? x.toNat = some x := by
  cases x <;> rfl

@[simp] theorem FileExistPolicy.ofNat?_toNat (x : FileExistPolicy) : ofNat? x.toNat = some x := by
  cases x <;> rfl

@[simp] theorem UploadStatusInf.ofNat?_toNat (x : UploadStatusInf) : ofNat? x.toNat = some x := by
  cases x <;> rfl

end LuspUpload.Upload

namespace LuspUpload.Ipc

open Lib Upload

/-- `fb->x() ? fb->x()->str() : ""`. -/
def stringField (R : Reader) (buf : List UInt8) (slot : ℕ) : List UInt8 := (R.text buf slot).getD []

/-- `FromFlatBuffer`; `none` for an enumerator that does not exist. -/
def fromFlatBuffer (R : Reader) (env : Env) (buf : List UInt8) : Option SyncUploadFileInfo :=
  (UploadFileTyped.ofNat? (R.getField buf 4 4 0)).bind fun typed =>
    (FileExistPolicy.ofNat? (R.getField buf 18 4 0)).bind fun policy =>
      (UploadStatusInf.ofNat? (R.getField buf 24 4 0)).map fun status =>
        { eUploadFileTyped := typed
          sLanClientDevice := env.toUtf16LEFromLocale (stringField R buf 6)
          sSyncFileSizeValue := .ofNat (R.getField buf 8 8 0)
          sFileFullNameValue := env.toUtf16LEFromLocale (stringField R buf 10)
          sOnlyFileNameValue := env.toUtf16LEFromLocale (stringField R buf 12)
          sFileRecordTimeValue := stringField R buf 14
          sFileMd5ValueInfo := stringField R buf 16
          eFileExistPolicy := policy
          sAuthTokenValues := stringField R buf 20
          uUploadTimeStamp := .ofNat (R.getField buf 22 8 0)
          eUploadStatusInf := status
          sDescriptionInfo := env.toUtf16LEFromLocale (stringField R buf 26)
          -- the count is a `long long` again, in milliseconds
          enqueueTime := (R.getField buf 28 8 0 : ℤ).bmod (2 ^ 64) * 1000000 }

/-- The strings in UTF-16. -/
def texts (info : SyncUploadFileInfo) : List (List UInt16) :=
  [info.sLanClientDevice, info.sFileFullNameValue, info.sOnlyFileNameValue, info.sDescriptionInfo]

/-- The UTF-16 strings are well formed, and the time point is one: 64 bits of nanoseconds. -/
structure ValidInfo (info : SyncUploadFileInfo) : Prop where
  texts : ∀ s ∈ texts info, ∃ cs, s = utf16Units cs
  lower : -2 ^ 63 ≤ info.enqueueTime
  upper : info.enqueueTime < 2 ^ 63

/-- What `UniConv` does: to UTF-8 exactly, and from the system code page; a text with bytes that mean
nothing in the page becomes the empty string. -/
structure ConvertsIn (env : Env) (page : CodePage) : Prop where
  toUtf8 : ∀ cs, env.toUtf8FromUtf16LE (utf16Units cs) = utf8Bytes cs
  fromLocale : ∀ bytes, env.toUtf16LEFromLocale bytes = (page.decode bytes).getD []

/-- The record with `enqueueTime` in whole milliseconds. -/
def truncated (info : SyncUploadFileInfo) : SyncUploadFileInfo :=
  { info with enqueueTime := info.enqueueTime.tdiv 1000000 * 1000000 }

/-- The record with its UTF-16 strings as UTF-8 read in the system code page. -/
def reread (env : Env) (info : SyncUploadFileInfo) : SyncUploadFileInfo :=
  { info with
    sLanClientDevice := env.toUtf16LEFromLocale (env.toUtf8FromUtf16LE info.sLanClientDevice)
    sFileFullNameValue := env.toUtf16LEFromLocale (env.toUtf8FromUtf16LE info.sFileFullNameValue)
    sOnlyFileNameValue := env.toUtf16LEFromLocale (env.toUtf8FromUtf16LE info.sOnlyFileNameValue)
    sDescriptionInfo := env.toUtf16LEFromLocale (env.toUtf8FromUtf16LE info.sDescriptionInfo) }

section Fields

variable {env : Env} {info : SyncUploadFileInfo} {R : Reader} {buf : List UInt8}

/-- A count of milliseconds comes back from 64 bits. -/
theorem bmod_toNat_emod {ms : ℤ} (hlower : -2 ^ 63 ≤ ms) (hupper : ms < 2 ^ 63) :
    (((ms % 2 ^ 64).toNat : ℕ) : ℤ).bmod (2 ^ 64) = ms := by
  rw [Int.toNat_of_nonneg (by omega)]
  have hmod : (ms % 2 ^ 64).bmod (2 ^ 64) = ms.bmod (2 ^ 64) := Int.emod_bmod ms (2 ^ 64)
  rw [hmod]
  exact Int.bmod_eq_of_le (by omega) (by omega)

/-- The milliseconds of a time point fit into 64 bits. -/
theorem tdiv_bounds {ns : ℤ} (hlower : -2 ^ 63 ≤ ns) (hupper : ns < 2 ^ 63) :
    -2 ^ 63 ≤ ns.tdiv 1000000 ∧ ns.tdiv 1000000 < 2 ^ 63 := by
  have hsum := Int.mul_tdiv_add_tmod ns 1000000
  have hmod := Int.tmod_lt_of_pos ns (b := 1000000) (by decide)
  have hmod' := Int.lt_tmod_of_pos ns (b := 1000000) (by decide)
  omega

/-- **What comes back**: every field but `enqueueTime` and the UTF-16 strings as it was. -/
theorem fromFlatBuffer_toFlatBuffer (hinfo : ValidInfo info)
    (henc : R.Encodes schemaSlots buf (toFlatBuffer env info)) :
    fromFlatBuffer R env buf = some (truncated (reread env info)) := by
  obtain ⟨h6, h10, h12, h14, h16, h20, h26⟩ := toFlatBuffer_strings env info
  obtain ⟨h4, h8, h18, h22, h24, h28⟩ := toFlatBuffer_scalars env info
  have hstring : ∀ slot ∈ schemaSlots, ∀ s, (toFlatBuffer env info).at slot = some (.text s) →
      stringField R buf slot = s := by
    intro slot hslot s hs
    rw [stringField, henc.text hslot hs, Option.getD_some]
  have htyped : info.eUploadFileTyped.toNat < 256 ^ 4 := by cases info.eUploadFileTyped <;> decide
  have hpolicy : info.eFileExistPolicy.toNat < 256 ^ 4 := by cases info.eFileExistPolicy <;> decide
  have hstatus : info.eUploadStatusInf.toNat < 256 ^ 4 := by cases info.eUploadStatusInf <;> decide
  have htime : ((info.enqueueTime.tdiv 1000000) % 2 ^ 64).toNat < 256 ^ 8 := by omega
  obtain ⟨hlower, hupper⟩ := tdiv_bounds hinfo.lower hinfo.upper
  unfold fromFlatBuffer
  rw [henc.getField (by decide) (by decide) h4 htyped (by decide),
    henc.getField (by decide) (by decide) h8 info.sSyncFileSizeValue.toNat_lt (by decide),
    henc.getField (by decide) (by decide) h18 hpolicy (by decide),
    henc.getField (by decide) (by decide) h22 info.uUploadTimeStamp.toNat_lt (by decide),
    henc.getField (by decide) (by decide) h24 hstatus (by decide),
    henc.getField (by decide) (by decide) h28 htime (by decide), bmod_toNat_emod hlower hupper,
    hstring 6 (by decide) _ h6, hstring 10 (by decide) _ h10, hstring 12 (by decide) _ h12,
    hstring 14 (by decide) _ h14, hstring 16 (by decide) _ h16, hstring 20 (by decide) _ h20,
    hstring 26 (by decide) _ h26]
  simp [truncated, reread]

/-- One string comes back when the code page is UTF-8 or the string ASCII. -/
theorem toUtf16LEFromLocale_iff {page : CodePage} (hpage : ConvertsIn env page) (cs : List Char) :
    env.toUtf16LEFromLocale (env.toUtf8FromUtf16LE (utf16Units cs)) = utf16Units cs ↔
      page = .utf8 ∨ ∀ u ∈ utf16Units cs, IsAscii u := by
  rw [hpage.toUtf8, hpage.fromLocale, ← page.decode_utf8Bytes_iff]
  cases hdecode : page.decode (utf8Bytes cs) with
  | some us => rw [Option.getD_some, Option.some.injEq]
  | none =>
    -- the empty string of a failure is not the text: the empty text does not fail
    refine iff_of_false ?_ (by simp)
    rw [Option.getD_none]
    intro hnil
    cases cs with
    | nil =>
      have hempty := (page.decode_utf8Bytes_iff []).mpr (Or.inr (List.forall_mem_nil _))
      rw [hempty] at hdecode
      exact absurd hdecode (by simp)
    | cons c cs =>
      rw [utf16Units_cons] at hnil
      exact utf16Char_ne_nil c (List.append_eq_nil_iff.mp hnil.symm).1

end Fields

/-- **Round trip** — an upload record goes into a buffer and comes back, with `enqueueTime` in whole
milliseconds, if and only if the system code page is UTF-8 or the device, both file names and the
description are ASCII. -/
theorem round_trip_iff {R : Reader} {env : Env} {page : CodePage} (hpage : ConvertsIn env page)
    {info : SyncUploadFileInfo} (hinfo : ValidInfo info) {buf : List UInt8}
    (henc : R.Encodes schemaSlots buf (toFlatBuffer env info)) :
    fromFlatBuffer R env buf = some (truncated info) ↔
      page = .utf8 ∨ ∀ s ∈ texts info, ∀ u ∈ s, IsAscii u := by
  have hone : ∀ s ∈ texts info, (env.toUtf16LEFromLocale (env.toUtf8FromUtf16LE s) = s ↔
      page = .utf8 ∨ ∀ u ∈ s, IsAscii u) := by
    intro s hs
    obtain ⟨cs, rfl⟩ := hinfo.texts s hs
    exact toUtf16LEFromLocale_iff hpage cs
  have hall : truncated (reread env info) = truncated info ↔
      ∀ s ∈ texts info, env.toUtf16LEFromLocale (env.toUtf8FromUtf16LE s) = s := by
    simp [truncated, reread, texts]
  rw [fromFlatBuffer_toFlatBuffer hinfo henc, Option.some.injEq, hall]
  constructor
  · intro h
    by_cases hutf8 : page = .utf8
    · exact Or.inl hutf8
    · refine Or.inr fun s hs => ?_
      exact ((hone s hs).mp (h s hs)).resolve_left hutf8
  · intro h s hs
    exact (hone s hs).mpr (h.imp_right fun hascii => hascii s hs)

/-! ### A sample of GBK -/

/-- The GBK characters of three pairs of bytes. -/
def gbkSample : CharTable where
  single _ := none
  double b b' :=
    if b = 0xE4 ∧ b' = 0xBD then some 0x6D63
    else if b = 0xA0 ∧ b' = 0xE5 then some 0x72B2
    else if b = 0xA5 ∧ b' = 0xBD then some 0x30BD
    else none
  double_ascii b b' u h := by
    split_ifs at h
    all_goals
      obtain rfl := Option.some.inj h
      decide
  double_surrogate b b' u h := by
    split_ifs at h
    all_goals
      obtain rfl := Option.some.inj h
      decide
  double_utf8 b b' u c h hc := by
    have hlt := toNat_lt_of_two_bytes hc
    split_ifs at h
    all_goals
      obtain rfl := Option.some.inj h
      intro heq
      rw [← heq] at hlt
      exact absurd hlt (by decide)

/-- `UniConv` under a system code page. -/
def systemEnv (page : CodePage) : Env :=
  { asciiEnv with
    toUtf8FromUtf16LE := fun s => ((decodeUtf16 s).map utf8Bytes).getD []
    toUtf16LEFromLocale := fun bytes => (page.decode bytes).getD [] }

theorem systemEnv_converts (page : CodePage) : ConvertsIn (systemEnv page) page where
  toUtf8 cs := by
    show ((decodeUtf16 (utf16Units cs)).map utf8Bytes).getD [] = utf8Bytes cs
    rw [decodeUtf16_utf16Units]
    rfl
  fromLocale _ := rfl

theorem smallInfo_valid (type : UploadFileTyped) : ValidInfo (smallInfo type) where
  texts := by
    intro s hs
    simp only [texts, smallInfo, List.mem_cons, List.not_mem_nil, or_false] at hs
    rcases hs with rfl | rfl | rfl | rfl
    · exact ⟨['D'], by decide⟩
    · exact ⟨['f'], by decide⟩
    · exact ⟨['f'], by decide⟩
    · exact ⟨[], rfl⟩
  lower := by
    show (-2 ^ 63 : ℤ) ≤ 9000000
    decide
  upper := by
    show (9000000 : ℤ) < 2 ^ 63
    decide

/-- An ASCII record comes back under GBK. -/
theorem round_trip_image :
    fromFlatBuffer Reader.wire (systemEnv (.table gbkSample)) imageBuffer =
      some (truncated (smallInfo .image)) := by
  refine (round_trip_iff (systemEnv_converts _) (smallInfo_valid .image) (by decide +kernel)).mpr
    (Or.inr ?_)
  intro s hs u hu
  simp only [texts, smallInfo, List.mem_cons, List.not_mem_nil, or_false] at hs
  rcases hs with rfl | rfl | rfl | rfl
  · obtain rfl := List.mem_singleton.mp hu
    decide
  · obtain rfl := List.mem_singleton.mp hu
    decide
  · obtain rfl := List.mem_singleton.mp hu
    decide
  · exact absurd hu List.not_mem_nil

/-- The image record with the file name U+4F60 U+597D. -/
def chineseInfo : SyncUploadFileInfo :=
  { smallInfo .image with
    sFileFullNameValue := [0x4F60, 0x597D]
    sOnlyFileNameValue := [0x4F60, 0x597D] }

/-- Its buffer in the binary format. -/
def chineseBuffer : List UInt8 :=
  [40, 0, 0, 0, 0, 0, 0, 0, 0, 0, 30, 0, 64, 0, 4, 0, 8, 0, 40, 0, 12, 0, 16, 0, 20, 0, 24, 0, 0,
    0, 28, 0, 48, 0, 32, 0, 36, 0, 56, 0, 30, 0, 0, 0, 1, 0, 0, 0, 112, 0, 0, 0, 96, 0, 0, 0, 80,
    0, 0, 0, 68, 0, 0, 0, 56, 0, 0, 0, 44, 0, 0, 0, 1, 0, 0, 0, 28, 0, 0, 0, 5, 0, 0, 0, 0, 0, 0,
    0, 7, 0, 0, 0, 0, 0, 0, 0, 9, 0, 0, 0, 0, 0, 0, 0, 0, 0, 0, 0, 0, 0, 0, 0, 0, 0, 0, 0, 0, 0,
    0, 0, 0, 0, 0, 0, 0, 0, 0, 0, 0, 0, 0, 0, 0, 0, 0, 0, 6, 0, 0, 0, 228, 189, 160, 229, 165,
    189, 0, 0, 6, 0, 0, 0, 228, 189, 160, 229, 165, 189, 0, 0, 1, 0, 0, 0, 68, 0, 0, 0]

theorem chineseInfo_valid : ValidInfo chineseInfo where
  texts := by
    intro s hs
    simp only [texts, chineseInfo, smallInfo, List.mem_cons, List.not_mem_nil, or_false] at hs
    rcases hs with rfl | rfl | rfl | rfl
    · exact ⟨['D'], by decide⟩
    · exact ⟨[.ofNat 0x4F60, .ofNat 0x597D], by decide⟩
    · exact ⟨[.ofNat 0x4F60, .ofNat 0x597D], by decide⟩
    · exact ⟨[], rfl⟩
  lower := by decide
  upper := by decide

/-- Under GBK the six UTF-8 bytes of the name come back as three other characters. -/
theorem chinese_name_garbled :
    ConvertsIn (systemEnv (.table gbkSample)) (.table gbkSample) ∧ ValidInfo chineseInfo ∧
    Reader.wire.Encodes schemaSlots chineseBuffer
      (toFlatBuffer (systemEnv (.table gbkSample)) chineseInfo) ∧
    fromFlatBuffer Reader.wire (systemEnv (.table gbkSample)) chineseBuffer =
      some { truncated chineseInfo with
        sFileFullNameValue := [0x6D63, 0x72B2, 0x30BD]
        sOnlyFileNameValue := [0x6D63, 0x72B2, 0x30BD] } ∧
    fromFlatBuffer Reader.wire (systemEnv (.table gbkSample)) chineseBuffer ≠
      some (truncated chineseInfo) := by
  have hread : fromFlatBuffer Reader.wire (systemEnv (.table gbkSample)) chineseBuffer =
      some { truncated chineseInfo with
        sFileFullNameValue := [0x6D63, 0x72B2, 0x30BD]
        sOnlyFileNameValue := [0x6D63, 0x72B2, 0x30BD] } := by decide +kernel
  refine ⟨systemEnv_converts _, chineseInfo_valid, by decide +kernel, hread, ?_⟩
  rw [hread]
  decide +kernel

end LuspUpload.Ipc
