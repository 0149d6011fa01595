import LuspUpload.Lib.CodePage
import Mathlib.Data.List.TakeWhile

/-!
# Text.SystemEncoding — the name of the system encoding

`GetCurrentSystemEncoding` gives a name for `iconv_open`, not a code page: the encoding that was set, else
on Windows the name that `m_encodingMap` has for the page of `GetACP`, and on Linux the character set of
the locale.  The two need not mean the same: page 936 is GBK, and its name here is GB2312.
-/

namespace LuspUpload.Text

open Lib

/-- `m_encodingMap`, with the names only. -/
def encodingMap : List (UInt16 × String) :=
  [(37, "IBM037"), (437, "IBM437"), (850, "IBM850"), (852, "IBM852"), (855, "IBM855"),
    (857, "IBM857"), (860, "IBM860"), (861, "IBM861"), (862, "DOS-862"), (863, "IBM863"),
    (865, "IBM865"), (866, "CP866"), (874, "Windows-874"), (932, "Shift_JIS"), (936, "GB2312"),
    (949, "KS_C_5601-1987"), (950, "Big5"), (1200, "UTF-16"), (1201, "UTF-16BE"),
    (1250, "Windows-1250"), (1251, "Windows-1251"), (1252, "Windows-1252"), (1253, "Windows-1253"),
    (1254, "Windows-1254"), (1255, "Windows-1255"), (1256, "Windows-1256"), (1257, "Windows-1257"),
    (1258, "Windows-1258"), (20866, "KOI8-R"), (21866, "KOI8-U"), (28591, "ISO-8859-1"),
    (28592, "ISO-8859-2"), (28595, "ISO-8859-5"), (28597, "ISO-8859-7"), (28599, "ISO-8859-9"),
    (28605, "ISO-8859-15"), (50220, "ISO-2022-JP"), (50225, "ISO-2022-KR"), (51932, "EUC-JP"),
    (51936, "EUC-CN"), (51949, "EUC-KR"), (52936, "HZ-GB-2312"), (54936, "GB18030"),
    (65000, "UTF-7"), (65001, "UTF-8")]

/-- `GetEncodingNameByCodePage`. -/
def getEncodingNameByCodePage (codePage : UInt16) : String :=
  match encodingMap.lookup codePage with
  | some dotNetName => dotNetName
  | none => "Encoding not found."

/-- What the platform is asked: `GetACP`, or `nl_langinfo(CODESET)`. -/
inductive SystemLocale where
  | windows (codePage : UInt32)
  | linux (codeset : List UInt8)
  deriving DecidableEq, Repr

/-- What is written into `ss`; a page is looked up by its lower 16 bits. -/
def SystemLocale.ss : SystemLocale → List UInt8
  | .windows codePage =>
    match encodingMap.lookup codePage.toUInt16 with
    | some dotNetName => utf8Bytes dotNetName.toList
    | none => []
  | .linux codeset => codeset

/-- `GetCurrentSystemEncoding`, with `m_defaultEncoding`. -/
def getCurrentSystemEncoding (defaultEncoding : List UInt8) (system : SystemLocale) : List UInt8 :=
  if defaultEncoding ≠ [] then defaultEncoding
  else if system.ss = [] then utf8Bytes "Encoding not found.".toList
  else system.ss

/-- A `std::string` as a C string. -/
def cStr (s : List UInt8) : List UInt8 := s.takeWhile (· ≠ 0)

section Names

variable {codePage : UInt16} {dotNetName : String}

/-- The list is a map. -/
theorem encodingMap_nodup : (encodingMap.map Prod.fst).Nodup := by decide

/-- The names are texts without a zero byte and without the `>` of the keys of the cache. -/
theorem encodingMap_names : ∀ row ∈ encodingMap, utf8Bytes row.2.toList ≠ [] ∧
    0 ∉ utf8Bytes row.2.toList ∧ 0x3E ∉ utf8Bytes row.2.toList := by
  decide +kernel

theorem mem_encodingMap_of_lookup (h : encodingMap.lookup codePage = some dotNetName) :
    (codePage, dotNetName) ∈ encodingMap := by
  obtain ⟨before, after, hmap, -⟩ := List.lookup_eq_some_iff.mp h
  rw [hmap]
  exact List.mem_append_right before List.mem_cons_self

theorem getEncodingNameByCodePage_plain (codePage : UInt16) :
    0 ∉ utf8Bytes (getEncodingNameByCodePage codePage).toList ∧
      0x3E ∉ utf8Bytes (getEncodingNameByCodePage codePage).toList := by
  unfold getEncodingNameByCodePage
  cases hlookup : encodingMap.lookup codePage with
  | some dotNetName => exact (encodingMap_names _ (mem_encodingMap_of_lookup hlookup)).2
  | none => decide +kernel

/-- On Windows, with no encoding set, it is the name of the page. -/
theorem getCurrentSystemEncoding_windows (codePage : UInt32) :
    getCurrentSystemEncoding [] (.windows codePage) =
      utf8Bytes (getEncodingNameByCodePage codePage.toUInt16).toList := by
  unfold getCurrentSystemEncoding getEncodingNameByCodePage SystemLocale.ss
  cases hlookup : encodingMap.lookup codePage.toUInt16 with
  | some dotNetName =>
    have hname := (encodingMap_names _ (mem_encodingMap_of_lookup hlookup)).1
    simp [hlookup, hname]
  | none => simp [hlookup]

/-- There is always a name; an empty one would mean the locale to `iconv_open`. -/
theorem getCurrentSystemEncoding_ne_nil (defaultEncoding : List UInt8) (system : SystemLocale) :
    getCurrentSystemEncoding defaultEncoding system ≠ [] := by
  unfold getCurrentSystemEncoding
  split_ifs with hset hfound
  · exact hset
  · decide +kernel
  · exact hfound

/-- A text without a zero byte is the same as a C string. -/
theorem cStr_eq {s : List UInt8} (h : 0 ∉ s) : cStr s = s := by
  refine List.takeWhile_eq_self_iff.mpr fun b hb => ?_
  rw [decide_eq_true_eq]
  rintro rfl
  exact h hb

/-- What `ConvertEncoding` is called with on Windows, when no encoding is set. -/
theorem currentEncoding_windows (codePage : UInt32) :
    let name := utf8Bytes (getEncodingNameByCodePage codePage.toUInt16).toList
    cStr (getCurrentSystemEncoding [] (.windows codePage)) = name ∧ 0x3E ∉ name := by
  intro name
  obtain ⟨hzero, hgreater⟩ := getEncodingNameByCodePage_plain codePage.toUInt16
  refine ⟨?_, hgreater⟩
  rw [getCurrentSystemEncoding_windows]
  exact cStr_eq hzero

end Names

end LuspUpload.Text
