import Mathlib.Data.List.Induction
import PageLookup.Proofs.Store.Reading
import PageLookup.Store.History

/-!
# What a history of writes leaves

A write decides the text under its key and brings the levels above it, or takes
everything away. Over a whole history the latest insert under a key since the
last clear therefore decides the key, and the tree that the history began with
shows through as long as no clear comes.
-/

set_option autoImplicit false

namespace PageLookup.Write

section Recent

variable (language platform name : String) (start : Option String) (p : Write → Bool) (was : Bool)

theorem textLeft_cons (w : Write) (earlier : List Write) :
    textLeft language platform name start (w :: earlier) =
      textLeft language platform name (textLeft language platform name start earlier) [w] := by
  cases w <;> rfl

theorem levelLeft_cons (w : Write) (earlier : List Write) :
    levelLeft p was (w :: earlier) = levelLeft p (levelLeft p was earlier) [w] := by
  cases w with
  | clear => rfl
  | insert => simp [levelLeft]

/-- Only the writes since the last clear are looked at, and the start only if there was none. -/
theorem textLeft_eq (latest : List Write) :
    textLeft language platform name start latest =
      ((latest.takeWhile (· != .clear)).findSome? (text? language platform name)).or
        (if .clear ∈ latest then none else start) := by
  induction latest with
  | nil => simp [textLeft]
  | cons w earlier ih =>
    cases w with
    | clear => simp [textLeft]
    | insert l p n t =>
      rw [textLeft, ih]
      cases h : text? language platform name (.insert l p n t) <;> simp [h]
      · intro h; cases h

theorem levelLeft_iff (latest : List Write) :
    levelLeft p was latest = true ↔
      (∃ w ∈ latest.takeWhile (· != .clear), p w = true) ∨ .clear ∉ latest ∧ was = true := by
  induction latest with
  | nil => simp [levelLeft]
  | cons w earlier ih =>
    cases w with
    | clear => simp [levelLeft]
    | insert => simp [levelLeft, ih, or_assoc]

end Recent

section Step

variable (s : Store) (w : Write) (language platform name : String)

theorem page_apply :
    (apply s w).page language platform name =
      textLeft language platform name (s.page language platform name) [w] := by
  cases w with
  | clear => rfl
  | insert l p n t =>
    simp only [apply, Store.page_insert, textLeft, text?, eq_comm (a := language),
      eq_comm (a := platform), eq_comm (a := name)]
    split <;> simp

theorem languages_apply :
    decide (language ∈ (apply s w).languages) =
      levelLeft (isUnder language) (decide (language ∈ s.languages)) [w] := by
  cases w with
  | clear => rfl
  | insert l p n t =>
    rw [Bool.eq_iff_iff]
    simp [apply, levelLeft, isUnder, Store.mem_languages_insert, eq_comm (a := language)]

theorem platforms_apply :
    decide (platform ∈ (apply s w).platforms language) =
      levelLeft (isInto language platform) (decide (platform ∈ s.platforms language)) [w] := by
  cases w with
  | clear => rfl
  | insert l p n t =>
    rw [Bool.eq_iff_iff]
    simp [apply, levelLeft, isInto, Store.mem_platforms_insert, eq_comm (a := language),
      eq_comm (a := platform)]

end Step

section Run

variable (start : Store) (writes : List Write) (language platform name : String)

theorem applyAll_append (later : List Write) :
    applyAll start (writes ++ later) = applyAll (applyAll start writes) later :=
  List.foldl_append

theorem applyAll_concat (w : Write) :
    applyAll start (writes ++ [w]) = apply (applyAll start writes) w :=
  applyAll_append start writes [w]

/-- What every write does to a reading, all writes do to it together, the latest first. -/
theorem read_applyAll {α : Type} (read : Store → α) (left : α → List Write → α)
    (hnil : ∀ was, left was [] = was)
    (hcons : ∀ was w earlier, left was (w :: earlier) = left (left was earlier) [w])
    (hstep : ∀ s w, read (apply s w) = left (read s) [w]) :
    read (applyAll start writes) = left (read start) writes.reverse := by
  induction writes using List.reverseRecOn with
  | nil => exact (hnil _).symm
  | append_singleton writes w ih =>
    rw [applyAll_concat, hstep, ih, List.reverse_concat, ← hcons]

theorem page_applyAll :
    (applyAll start writes).page language platform name =
      textLeft language platform name (start.page language platform name) writes.reverse :=
  read_applyAll start writes (·.page language platform name) (textLeft language platform name)
    (fun _ => rfl) (textLeft_cons language platform name)
    fun s w => page_apply s w language platform name

theorem languages_applyAll :
    decide (language ∈ (applyAll start writes).languages) =
      levelLeft (isUnder language) (decide (language ∈ start.languages)) writes.reverse :=
  read_applyAll start writes (fun s => decide (language ∈ s.languages))
    (levelLeft (isUnder language)) (fun _ => rfl) (levelLeft_cons (isUnder language))
    fun s w => languages_apply s w language

theorem platforms_applyAll :
    decide (platform ∈ (applyAll start writes).platforms language) =
      levelLeft (isInto language platform) (decide (platform ∈ start.platforms language))
        writes.reverse :=
  read_applyAll start writes (fun s => decide (platform ∈ s.platforms language))
    (levelLeft (isInto language platform)) (fun _ => rfl)
    (levelLeft_cons (isInto language platform)) fun s w => platforms_apply s w language platform

end Run

/-- What a store shows after any history: every key its latest text since the last clear, every
level that was written under or was there from the start, and all of it in ascending order. -/
theorem reads_follow_history (start : Store) (writes : List Write) (language platform : String) :
    let s := applyAll start writes
    (∀ name, s.page language platform name =
      ((sinceClear writes).findSome? (text? language platform name)).or
        (if .clear ∈ writes then none else start.page language platform name)) ∧
    s.languages.Pairwise (· < ·) ∧ (s.platforms language).Pairwise (· < ·) ∧
    (language ∈ s.languages ↔ (∃ w ∈ sinceClear writes, w.isUnder language = true) ∨
      .clear ∉ writes ∧ language ∈ start.languages) ∧
    (platform ∈ s.platforms language ↔
      (∃ w ∈ sinceClear writes, w.isInto language platform = true) ∨
        .clear ∉ writes ∧ platform ∈ start.platforms language) ∧
    ((s.pages language platform).isSome = true ↔ platform ∈ s.platforms language) ∧
    (∀ names, s.pages language platform = some names → names.Pairwise (· < ·) ∧
      ∀ name, name ∈ names ↔ (s.page language platform name).isSome = true) ∧
    ∀ l p n t name, (l, p, n) ≠ (language, platform, name) →
      (s.insert l p n t).page language platform name = s.page language platform name := by
  intro s
  refine ⟨?_, s.languages_ascending, s.platforms_ascending language, ?_, ?_,
    s.pages_isSome_iff language platform, ?_, ?_⟩
  · intro name
    simpa [sinceClear] using (page_applyAll start writes language platform name).trans
      (textLeft_eq language platform name _ writes.reverse)
  · have hlevel := levelLeft_iff (isUnder language) (decide (language ∈ start.languages))
      writes.reverse
    rw [← languages_applyAll] at hlevel
    simpa [sinceClear] using hlevel
  · have hlevel := levelLeft_iff (isInto language platform)
      (decide (platform ∈ start.platforms language)) writes.reverse
    rw [← platforms_applyAll] at hlevel
    simpa [sinceClear] using hlevel
  · intro names h
    exact ⟨Store.pages_ascending h, Store.mem_pages_iff h⟩
  · intro l p n t name hne
    rw [Store.page_insert, if_neg]
    rintro ⟨rfl, rfl, rfl⟩
    exact hne rfl

theorem reads_follow_overwritten_pages :
    let start : Store := Store.insert ⟨Keyed.empty.insert "de" .empty⟩ "en" common "tar" "old"
    let before : List Write := [.insert "en" "linux" "tar" "one"]
    let writes := before ++ [.clear, .insert "en" "linux" "tar" "two",
      .insert "en" "linux" "apt" "list", .insert "en" "linux" "tar" "three"]
    "de" ∈ (applyAll start before).languages ∧ "de" ∉ (applyAll start writes).languages ∧
      (applyAll start before).page "en" common "tar" = some "old" ∧
      (applyAll start writes).page "en" common "tar" = none ∧
      (applyAll start writes).page "en" "linux" "tar" = some "three" ∧
      "tar" ∈ ["apt", "tar"] ∧
      ((applyAll start writes).insert "en" common "tar" "four").page "en" "linux" "tar" =
        some "three" := by
  intro start before writes
  have hlinux := reads_follow_history start writes "en" "linux"
  have htar : (applyAll start writes).page "en" "linux" "tar" = some "three" :=
    (hlinux.1 "tar").trans (by decide)
  refine ⟨(reads_follow_history start before "de" "linux").2.2.2.1.mpr (by decide),
    mt (reads_follow_history start writes "de" "linux").2.2.2.1.mp (by decide),
    ((reads_follow_history start before "en" common).1 "tar").trans (by decide),
    ((reads_follow_history start writes "en" common).1 "tar").trans (by decide), htar, ?_, ?_⟩
  · exact ((hlinux.2.2.2.2.2.2.1 ["apt", "tar"] (by decide)).2 "tar").mpr (by rw [htar]; rfl)
  · exact (hlinux.2.2.2.2.2.2.2 "en" common "tar" "four" "tar" (by decide)).trans htar

end PageLookup.Write
