import Skattr.Core.Delivery.ChunkTransfer
import Skattr.Lib.Trim

/-!
# The names of received files

A file name is chosen by its sender, and two functions reduce it to a name that can be shown and
stored: one when a manifest is made, the other when a received file is announced. Both take the part
behind the last separator, remove control and bidirectional characters and trim dots. They differ in
the order: the first trims before it removes, and what is removed may hide further dots; the second
trims whitespace before dots, which may be followed by further whitespace, and cuts the name last.

`sanitised_safe_iff` says for which names each of them returns a safe one, and `unsafe_names` shows
names for which they return `..` and a blank.
-/

namespace Skattr.Core

open Lib

/-! ### What the functions look at -/

def baseName (name : String) : List Char := name.toList.rtakeWhile (!isSeparator ·)

def isVisible (c : Char) : Bool := !isControl c && !isBidiOrFormatControl c && !isSeparator c

def isDot (c : Char) : Bool := c = '.'

/-- The sanitiser returns a safe name for this one. -/
structure SafeName (sanitize : String → String) (name : String) : Prop where
  notBlank : trim (sanitize name) ≠ ""
  noSeparator : ∀ c ∈ (sanitize name).toList, isSeparator c = false
  noControl : ∀ c ∈ (sanitize name).toList, isControl c = false
  noBidi : ∀ c ∈ (sanitize name).toList, isBidiOrFormatControl c = false
  notHere : sanitize name ≠ "."
  notParent : sanitize name ≠ ".."
  stable : sanitize (sanitize name) = sanitize name

/-- The base name, without the dots around it, has a dot neither as its first nor as its last
visible character. -/
def DotsOutside (name : String) : Prop :=
  ∀ core, Stripped isDot (baseName name) core → Bare isDot (core.filter isVisible)

/-- The visible characters of the base name, without the whitespace around them and then without the
dots around the rest, do not begin with whitespace, and the last one that is not cut off is neither
whitespace nor a dot. -/
def EndsInText (name : String) : Prop :=
  ∀ text core, Stripped isWhitespace ((baseName name).filter isVisible) text →
    Stripped isDot text core → core ≠ [] →
      (∀ c ∈ core.head?, isWhitespace c = false) ∧
        ∀ c ∈ (core.take 200).getLast?, isWhitespace c = false ∧ isDot c = false

/-! ### Lists of characters -/

variable {name : String} {chars : List Char}

theorem trim_eq_empty_iff : trim name = "" ↔ strip isWhitespace name.toList = [] := by
  show String.ofList (strip isWhitespace name.toList) = "" ↔ _
  rw [String.ofList_eq_empty_iff]

theorem isSeparator_of_visible {c : Char} (h : isVisible c) :
    isSeparator c = false ∧ isControl c = false ∧ isBidiOrFormatControl c = false := by
  simp only [isVisible, Bool.and_eq_true, Bool.not_eq_true'] at h
  exact ⟨h.2, h.1.1, h.1.2⟩

theorem filter_visible (h : ∀ c ∈ chars, isVisible c) : chars.filter isVisible = chars :=
  List.filter_eq_self.mpr h

theorem baseName_of_visible (h : ∀ c ∈ name.toList, isVisible c) : baseName name = name.toList := by
  refine List.rtakeWhile_eq_self_iff.mpr fun c hc => ?_
  rw [(isSeparator_of_visible (h c hc)).1]
  rfl

theorem SafeName.of_visible {sanitize : String → String}
    (hvisible : ∀ c ∈ (sanitize name).toList, isVisible c)
    (hblank : strip isWhitespace (sanitize name).toList ≠ [])
    (hdot : Bare isDot (sanitize name).toList)
    (hstable : sanitize (sanitize name) = sanitize name) : SafeName sanitize name where
  notBlank := fun h => hblank (trim_eq_empty_iff.mp h)
  noSeparator := fun c hc => (isSeparator_of_visible (hvisible c hc)).1
  noControl := fun c hc => (isSeparator_of_visible (hvisible c hc)).2.1
  noBidi := fun c hc => (isSeparator_of_visible (hvisible c hc)).2.2
  notHere := fun h => absurd (hdot.head '.' (by rw [h]; rfl)) (by decide)
  notParent := fun h => absurd (hdot.head '.' (by rw [h]; rfl)) (by decide)
  stable := hstable

theorem not_isDot_of_isWhitespace {c : Char} (h : isWhitespace c) : isDot c = false := by
  rw [isDot, decide_eq_false_iff_not]
  rintro rfl
  revert h
  decide

theorem bare_of_blank (h : strip isWhitespace chars = []) : Bare isDot chars := by
  obtain ⟨before, after, rfl, hbefore, hafter, -⟩ := stripped_iff.mpr h
  have hspace : ∀ c ∈ before ++ [] ++ after, isWhitespace c := by
    intro c hc
    rw [List.append_nil, List.mem_append] at hc
    exact hc.elim (hbefore c) (hafter c)
  exact bare_of_forall fun c hc => not_isDot_of_isWhitespace (hspace c hc)

theorem plain_text (chars : List Char)
    (h : (chars.all fun c => isVisible c && !isWhitespace c && !isDot c) = true) :
    (∀ c ∈ chars, isVisible c) ∧ Bare isWhitespace chars ∧ Bare isDot chars := by
  simp only [List.all_eq_true, Bool.and_eq_true, Bool.not_eq_true'] at h
  exact ⟨fun c hc => (h c hc).1.1, bare_of_forall fun c hc => (h c hc).1.2,
    bare_of_forall fun c hc => (h c hc).2⟩

/-! ### The name in a manifest -/

theorem toList_sanitizeFilename (raw : String) :
    (sanitizeFilename raw).toList =
      if strip isWhitespace ((strip isDot (baseName raw)).filter isVisible) = [] then
        "attachment".toList
      else (strip isDot (baseName raw)).filter isVisible := by
  have hblank : (trim (String.ofList ((strip isDot (baseName raw)).filter isVisible))).isEmpty =
      true ↔ strip isWhitespace ((strip isDot (baseName raw)).filter isVisible) = [] := by
    rw [String.isEmpty_iff, trim_eq_empty_iff, String.toList_ofList]
  show (if (trim (String.ofList ((strip isDot (baseName raw)).filter isVisible))).isEmpty = true
    then "attachment" else String.ofList ((strip isDot (baseName raw)).filter isVisible)).toList = _
  by_cases h : strip isWhitespace ((strip isDot (baseName raw)).filter isVisible) = []
  · rw [if_pos h, if_pos (hblank.mpr h)]
  · rw [if_neg h, if_neg fun hempty => h (hblank.mp hempty), String.toList_ofList]

theorem sanitizeFilename_eq_self (hvisible : ∀ c ∈ name.toList, isVisible c)
    (hblank : strip isWhitespace name.toList ≠ []) (hdot : Bare isDot name.toList) :
    sanitizeFilename name = name := by
  rw [← String.toList_inj, toList_sanitizeFilename, baseName_of_visible hvisible,
    strip_eq_self hdot, filter_visible hvisible, if_neg hblank]

theorem sanitizeFilename_safe_iff (name : String) :
    SafeName sanitizeFilename name ↔ DotsOutside name := by
  have hcore : DotsOutside name ↔ Bare isDot ((strip isDot (baseName name)).filter isVisible) :=
    ⟨fun h => h _ (stripped_iff.mpr rfl), fun h core hstrip => stripped_iff.mp hstrip ▸ h⟩
  rw [hcore]
  have hname := toList_sanitizeFilename name
  generalize hcleaned : (strip isDot (baseName name)).filter isVisible = cleaned at hname ⊢
  have hvisible : ∀ c ∈ cleaned, isVisible c := by
    intro c hc
    rw [← hcleaned] at hc
    exact (List.mem_filter.mp hc).2
  by_cases hblank : strip isWhitespace cleaned = []
  · -- the name in place of a blank one is safe, and there is no dot in a blank
    rw [if_pos hblank, String.toList_inj] at hname
    obtain ⟨hletters, -, hdot⟩ := plain_text "attachment".toList (by decide)
    refine ⟨fun _ => bare_of_blank hblank, fun _ => .of_visible ?_ ?_ ?_ ?_⟩
    · rwa [hname]
    · rw [hname]
      decide
    · rwa [hname]
    · rw [hname]
      exact sanitizeFilename_eq_self hletters (by decide) hdot
  · rw [if_neg hblank] at hname
    constructor
    · intro hsafe
      have hstable := congrArg String.toList hsafe.stable
      rw [toList_sanitizeFilename, baseName_of_visible (by rwa [hname]), hname,
        filter_visible fun c hc => hvisible c (mem_of_mem_strip hc)] at hstable
      split at hstable
      · rw [← hstable]
        exact (plain_text _ (by decide)).2.2
      · exact bare_of_strip_eq hstable
    · intro hdot
      have hstable : sanitizeFilename (sanitizeFilename name) = sanitizeFilename name :=
        sanitizeFilename_eq_self (by rwa [hname]) (by rwa [hname]) (by rwa [hname])
      exact .of_visible (by rwa [hname]) (by rwa [hname]) (by rwa [hname]) hstable

/-! ### The name of a received file -/

namespace Delivery

theorem toList_sanitizeFilename (name : String) :
    (sanitizeFilename name).toList =
      (if strip isDot (strip isWhitespace ((baseName name).filter isVisible)) = [] then
        "file".toList
      else strip isDot (strip isWhitespace ((baseName name).filter isVisible))).take 200 := by
  have htrim : (trim (String.ofList ((baseName name).filter isVisible))).toList =
      strip isWhitespace ((baseName name).filter isVisible) := by
    rw [trim, String.toList_ofList, String.toList_ofList, strip]
  show (String.ofList ((if (strip isDot (trim (String.ofList
    ((baseName name).filter isVisible))).toList).isEmpty = true then "file".toList
    else strip isDot (trim (String.ofList ((baseName name).filter isVisible))).toList).take
      200)).toList = _
  rw [htrim, String.toList_ofList]
  simp only [List.isEmpty_iff]

theorem sanitizeFilename_eq_self (hvisible : ∀ c ∈ name.toList, isVisible c)
    (hne : name.toList ≠ []) (hlength : name.toList.length ≤ 200)
    (hspace : Bare isWhitespace name.toList) (hdot : Bare isDot name.toList) :
    sanitizeFilename name = name := by
  rw [← String.toList_inj, toList_sanitizeFilename, baseName_of_visible hvisible,
    filter_visible hvisible, strip_eq_self hspace, strip_eq_self hdot, if_neg hne,
    List.take_of_length_le hlength]

theorem bare_of_stable (hvisible : ∀ c ∈ name.toList, isVisible c)
    (hstable : sanitizeFilename name = name) :
    Bare isWhitespace name.toList ∧ Bare isDot name.toList := by
  have hlist := congrArg String.toList hstable
  rw [toList_sanitizeFilename, baseName_of_visible hvisible, filter_visible hvisible] at hlist
  split at hlist
  · rw [← hlist]
    exact (plain_text _ (by decide)).2
  · -- neither pass has made the text shorter
    have hlength : name.toList.length ≤ (strip isDot (strip isWhitespace name.toList)).length := by
      rw [← hlist, List.length_take]
      exact (Nat.min_le_right _ _).trans (le_of_eq (by rw [hlist]))
    have hspace : Bare isWhitespace name.toList :=
      bare_of_length_le (hlength.trans (length_strip_le _ _))
    rw [strip_eq_self hspace] at hlength
    exact ⟨hspace, bare_of_length_le hlength⟩

theorem sanitizeFilename_safe_iff (name : String) :
    SafeName sanitizeFilename name ↔ EndsInText name := by
  have hname := toList_sanitizeFilename name
  generalize hcore : strip isDot (strip isWhitespace ((baseName name).filter isVisible)) = core
    at hname
  have hends : EndsInText name ↔ (core ≠ [] → (∀ c ∈ core.head?, isWhitespace c = false) ∧
      ∀ c ∈ (core.take 200).getLast?, isWhitespace c = false ∧ isDot c = false) := by
    refine ⟨fun h => h _ core (stripped_iff.mpr rfl) (stripped_iff.mpr hcore),
      fun h text other htext hother => ?_⟩
    rw [← stripped_iff.mp hother, ← stripped_iff.mp htext, hcore]
    exact h
  rw [hends]
  have hvisible : ∀ c ∈ core.take 200, isVisible c := by
    intro c hc
    have hmem := List.mem_of_mem_take hc
    rw [← hcore] at hmem
    exact (List.mem_filter.mp (mem_of_mem_strip (mem_of_mem_strip hmem))).2
  have hbare : Bare isDot core := hcore ▸ bare_strip _ _
  by_cases hnil : core = []
  · rw [if_pos hnil] at hname
    have hfile : sanitizeFilename name = "file" := String.toList_inj.mp hname
    obtain ⟨hletters, hspace, hdot⟩ := plain_text "file".toList (by decide)
    refine ⟨fun _ hne => absurd hnil hne, fun _ => .of_visible ?_ ?_ ?_ ?_⟩
    · rwa [hfile]
    · rw [hfile]
      decide
    · rwa [hfile]
    · rw [hfile]
      exact sanitizeFilename_eq_self hletters (by decide) (by decide) hspace hdot
  · rw [if_neg hnil] at hname
    have hhead : (core.take 200).head? = core.head? := by
      rw [List.head?_take, if_neg (by decide)]
    have hne : core.take 200 ≠ [] := by
      rw [Ne, List.take_eq_nil_iff]
      rintro (h | h)
      · cases h
      · exact hnil h
    constructor
    · intro hsafe _
      obtain ⟨hspace, hdot⟩ := bare_of_stable (by rwa [hname]) hsafe.stable
      rw [hname] at hspace hdot
      exact ⟨hhead ▸ hspace.head, fun c hc => ⟨hspace.last c hc, hdot.last c hc⟩⟩
    · intro h
      obtain ⟨hfirst, hlast⟩ := h hnil
      have hspace : Bare isWhitespace (sanitizeFilename name).toList := by
        rw [hname]
        exact ⟨hhead ▸ hfirst, fun c hc => (hlast c hc).1⟩
      have hdot : Bare isDot (sanitizeFilename name).toList := by
        rw [hname]
        exact ⟨hhead ▸ hbare.head, fun c hc => (hlast c hc).2⟩
      have hstable : sanitizeFilename (sanitizeFilename name) = sanitizeFilename name :=
        sanitizeFilename_eq_self (by rwa [hname]) (by rwa [hname])
          (by rw [hname]; exact List.length_take_le _ _) hspace hdot
      refine .of_visible (by rwa [hname]) ?_ hdot hstable
      rw [strip_eq_self hspace, hname]
      exact hne

end Delivery

/-- The two sanitisers return a safe name exactly for the names with dots and whitespace at the
places where each of them looks for them. -/
theorem sanitised_safe_iff (name : String) :
    (SafeName sanitizeFilename name ↔ DotsOutside name) ∧
      (SafeName Delivery.sanitizeFilename name ↔ EndsInText name) :=
  ⟨sanitizeFilename_safe_iff name, Delivery.sanitizeFilename_safe_iff name⟩

/-- Control characters hide the two dots of the parent directory from the first sanitiser, and a
space between two dots is all that the second one leaves. -/
theorem unsafe_names :
    sanitizeFilename "\x01..\x01" = ".." ∧ Delivery.sanitizeFilename ". ." = " " ∧
      ¬SafeName sanitizeFilename "\x01..\x01" ∧ ¬SafeName Delivery.sanitizeFilename ". ." := by
  have hparent : sanitizeFilename "\x01..\x01" = ".." := by decide +kernel
  have hblank : Delivery.sanitizeFilename ". ." = " " := by decide +kernel
  refine ⟨hparent, hblank, fun h => h.notParent hparent, fun h => h.notBlank ?_⟩
  rw [hblank]
  decide +kernel

end Skattr.Core
