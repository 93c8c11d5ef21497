import Mathlib
import Sidewalk.Lib.CString
import Sidewalk.Lib.System

/-!
# Traces of the modem

`smtc_modem_hal_print_trace` joins what it is given until a newline ends the line. The length that
it counts is right as long as a line fits with its newline and its terminator, and nothing that it
is given is empty.
-/

namespace Sidewalk.Location

open Sidewalk.Lib

/-! ## The code -/

def newline : UInt8 := 10
def escape : UInt8 := 0x1b

/-- What one call formats, and what was on the stack before. -/
structure Fragment where
  text : List UInt8
  nonzero : 0 ∉ text
  length_le : text.length ≤ 127
  stack : Region 128

/-- The static variables. -/
structure Trace where
  strJoinedLen : UInt8
  strJoined : Region 192
  subsequent : Bool

def Trace.reset : Trace := ⟨0, ⟨fun _ => 0⟩, false⟩

/-- A call outside of a line that is joined. -/
def printFirst (str : Region 128) (thisLen : Nat) (t : Trace) :
    Checked (Trace × Option (List UInt8)) := do
  let last ← str.load (thisLen - 1)
  let first ← str.load 0
  if last = newline ∨ first = escape then
    let str ← if last = newline then str.store (thisLen - 1) 0 else pure str
    let line ← str.string
    pure (t, some line)
  else
    let text ← str.string
    let joined ← t.strJoined.strncpy text 192
    pure (⟨UInt8.ofNat thisLen, joined, true⟩, none)

/-- A call inside of a line that is joined. -/
def printSubsequent (str : Region 128) (thisLen : Nat) (t : Trace) :
    Checked (Trace × Option (List UInt8)) := do
  let remain := 192 - t.strJoinedLen
  let text ← str.string
  let joined ← t.strJoined.strncat text remain.toNat
  let joinedLen := t.strJoinedLen + UInt8.ofNat thisLen
  let last ← str.load (thisLen - 1)
  if last = newline then
    let joined ← joined.store (joinedLen.toNat - 1) 0
    let line ← joined.string
    pure (⟨joinedLen, joined, false⟩, some line)
  else pure (⟨joinedLen, joined, true⟩, none)

/-- `smtc_modem_hal_print_trace`, with the line that it logs. -/
def printTrace (fragment : Fragment) (t : Trace) : Checked (Trace × Option (List UInt8)) := do
  let str ← fragment.stack.write 0 (fragment.text ++ [0])
  let thisLen ← str.strlen
  if t.subsequent then printSubsequent str thisLen t else printFirst str thisLen t

/-! ## Runs -/

/-- The static variables, and the calls with the lines that they logged, the last call first. -/
structure TraceRun where
  trace : Trace
  history : List (List UInt8 × Option (List UInt8))

/-- The calls one after another, up to an access outside. -/
def printAll : List Fragment → TraceRun → Checked TraceRun
  | [], s => .ok s
  | fragment :: fragments, s => do
    let r ← printTrace fragment s.trace
    printAll fragments ⟨r.1, (fragment.text, r.2) :: s.history⟩

/-! ## The property -/

/-- What was printed since the last line. -/
def sinceLine (history : List (List UInt8 × Option (List UInt8))) : List UInt8 :=
  ((history.takeWhile fun call => call.2.isNone).reverse.map Prod.fst).flatten

def withoutNewline (text : List UInt8) : List UInt8 :=
  if text.getLast? = some newline then text.dropLast else text

/-- Every line is what was printed since the line before, cut to the buffer. -/
def Lines (history : List (List UInt8 × Option (List UInt8))) : Prop :=
  ∀ newer text line older, history = newer ++ (text, some line) :: older →
    line = (withoutNewline (sinceLine older ++ text)).take 191

/-- The calls stay inside the two buffers and log these lines. -/
def Joins (fragments : List Fragment) : Prop :=
  ∃ s, printAll fragments ⟨.reset, []⟩ = .ok s ∧ Lines s.history

/-- The line that waits for its end, after one more text. -/
def joinText (line text : List UInt8) : List UInt8 :=
  if text.getLast? = some newline ∨ (line = [] ∧ text.head? = some escape) then []
  else line ++ text

/-- From this line on no text is empty, and no line with its newline is longer than 191. -/
def FitsFrom (line : List UInt8) (texts : List (List UInt8)) : Prop :=
  ∀ before text after, texts = before ++ text :: after →
    text ≠ [] ∧ (before.foldl joinText line).length + text.length ≤ 191

/-! ## One call -/

/-- The buffer has the line that waits for its end. -/
structure Waits (line : List UInt8) (t : Trace) : Prop where
  subsequent : t.subsequent = true ↔ line ≠ []
  joined : line ≠ [] → t.strJoined.Holds line
  length : line ≠ [] → t.strJoinedLen.toNat = line.length

/-- What a call does with a text that fits: it ends the line, or the line goes on. -/
def Printed (line text : List UInt8) (r : Trace × Option (List UInt8)) : Prop :=
  (joinText line text = [] ∧ Waits [] r.1 ∧ r.2 = some (withoutNewline (line ++ text))) ∨
    (joinText line text = line ++ text ∧ Waits (line ++ text) r.1 ∧ r.2 = none)

section

variable {line text : List UInt8} {str : Region 128} {t : Trace}

theorem waits_nil (h : t.subsequent = false) : Waits [] t := by
  refine ⟨?_, fun hne => absurd rfl hne, fun hne => absurd rfl hne⟩
  simp [h]

theorem waits_reset : Waits [] .reset := waits_nil rfl

/-- The text is formatted into the buffer with its terminator. -/
theorem printTrace_formatted (fragment : Fragment) (t : Trace) :
    ∃ str : Region 128, str.Holds fragment.text ∧ printTrace fragment t =
      if t.subsequent then printSubsequent str fragment.text.length t
      else printFirst str fragment.text.length t := by
  have hlength := fragment.length_le
  obtain ⟨str, hwrite, hstr⟩ := Region.holds_write (r := fragment.stack) fragment.text []
    (by simp only [List.length_append, List.length_singleton]; omega)
    fragment.nonzero
  refine ⟨str, hstr, ?_⟩
  unfold printTrace
  rw [hwrite, checked_ok_bind, hstr.strlen, checked_ok_bind]

theorem getLast?_eq_newline (hne : text ≠ []) :
    text.getLast? = some newline ↔ text.getLast hne = newline := by
  rw [List.getLast?_eq_some_getLast hne, Option.some.injEq]

theorem head?_eq_escape (hne : text ≠ []) :
    text.head? = some escape ↔ text.head hne = escape := by
  rw [List.head?_eq_some_head hne, Option.some.injEq]

/-- The byte before the buffer is read. -/
theorem printFirst_empty : ∃ error, printFirst str 0 t = .error error := by
  unfold printFirst
  rw [Region.load_negative (by decide)]
  exact ⟨_, rfl⟩

theorem printFirst_spec (hw : t.subsequent = false) (hstr : str.Holds text) (hne : text ≠ []) :
    ∃ r, printFirst str text.length t = .ok r ∧ Printed [] text r := by
  have hfits := hstr.fits
  unfold printFirst
  rw [hstr.load_last hne, checked_ok_bind, hstr.load_first hne, checked_ok_bind]
  by_cases hlast : text.getLast hne = newline
  · obtain ⟨cut, hcut, hheld⟩ := hstr.cut hne
    have hend : text.getLast? = some newline := (getLast?_eq_newline hne).mpr hlast
    rw [if_pos (.inl hlast), if_pos hlast, hcut, checked_ok_bind]
    change ∃ r, (cut.string >>= _) = .ok r ∧ _
    rw [hheld.string, checked_ok_bind]
    refine ⟨_, rfl, .inl ⟨if_pos (.inl hend), waits_nil hw, ?_⟩⟩
    rw [List.nil_append, withoutNewline, if_pos hend]
  · have hend : text.getLast? ≠ some newline := mt (getLast?_eq_newline hne).mp hlast
    by_cases hfirst : text.head hne = escape
    · rw [if_pos (.inr hfirst), if_neg hlast]
      change ∃ r, (str.string >>= _) = .ok r ∧ _
      rw [hstr.string, checked_ok_bind]
      refine ⟨_, rfl, .inl ⟨if_pos (.inr ⟨rfl, (head?_eq_escape hne).mpr hfirst⟩), waits_nil hw, ?_⟩⟩
      rw [List.nil_append, withoutNewline, if_neg hend]
    · obtain ⟨joined, hcopy, hheld⟩ := Region.holds_strncpy (r := t.strJoined)
        text (n := 192) (by omega) (Nat.le_refl _) hstr.nonzero
      rw [if_neg (not_or_intro hlast hfirst), hstr.string, checked_ok_bind, hcopy,
        checked_ok_bind]
      refine ⟨_, rfl, .inr ⟨if_neg ?_, ⟨iff_of_true rfl hne, fun _ => hheld, fun _ => ?_⟩, rfl⟩⟩
      · rintro (h | ⟨-, h⟩)
        · exact hend h
        · exact hfirst ((head?_eq_escape hne).mp h)
      · exact Nat.mod_eq_of_lt (by change text.length < 256; omega)

/-- What is left of the buffer, and the length that is counted. -/
theorem remain_toNat (hw : Waits line t) (hline : line ≠ []) :
    (192 - t.strJoinedLen).toNat = 192 - line.length := by
  have hfits := (hw.joined hline).fits
  have hlength := hw.length hline
  rw [UInt8.toNat_sub]
  change (256 - t.strJoinedLen.toNat + 192) % 256 = _
  omega

theorem printSubsequent_empty (hw : Waits line t) (hline : line ≠ []) (hstr : str.Holds []) :
    ∃ error, printSubsequent str 0 t = .error error := by
  unfold printSubsequent
  simp only
  obtain ⟨joined, hcat, -⟩ := (hw.joined hline).strncat [] (Nat.zero_le _)
    (hw.joined hline).fits List.not_mem_nil
  rw [hstr.string, checked_ok_bind, hcat, checked_ok_bind, Region.load_negative (by decide)]
  exact ⟨_, rfl⟩

/-- The terminator is put behind the buffer. -/
theorem printSubsequent_long (hw : Waits line t) (hline : line ≠ []) (hstr : str.Holds text)
    (hlong : 191 < line.length + text.length) :
    ∃ error, printSubsequent str text.length t = .error error := by
  have hfits := (hw.joined hline).fits
  obtain ⟨error, hcat⟩ := (hw.joined hline).strncat_outside text
    (n := (192 - t.strJoinedLen).toNat) (by rw [remain_toNat hw hline]; omega)
  unfold printSubsequent
  simp only
  rw [hstr.string, checked_ok_bind, hcat]
  exact ⟨error, rfl⟩

theorem printSubsequent_spec (hw : Waits line t) (hline : line ≠ []) (hstr : str.Holds text)
    (hne : text ≠ []) (hlength : line.length + text.length ≤ 191) :
    ∃ r, printSubsequent str text.length t = .ok r ∧ Printed line text r := by
  obtain ⟨joined, hcat, hheld⟩ := (hw.joined hline).strncat text
    (n := (192 - t.strJoinedLen).toNat) (by rw [remain_toNat hw hline]; omega) (by omega)
    hstr.nonzero
  have hboth : line ++ text ≠ [] := List.append_ne_nil_of_right_ne_nil _ hne
  have hcount : (t.strJoinedLen + UInt8.ofNat text.length).toNat = (line ++ text).length := by
    have hjoined := hw.length hline
    rw [UInt8.toNat_add, UInt8.toNat_ofNat', List.length_append, hjoined]
    omega
  have hlast : (line ++ text).getLast? = text.getLast? := by
    rw [List.getLast?_append_of_ne_nil _ hne]
  unfold printSubsequent
  simp only
  rw [hstr.string, checked_ok_bind, hcat, checked_ok_bind, hstr.load_last hne, checked_ok_bind,
    hcount]
  by_cases hnew : text.getLast hne = newline
  · obtain ⟨cut, hcut, hcutHeld⟩ := hheld.cut hboth
    have hend : text.getLast? = some newline := (getLast?_eq_newline hne).mpr hnew
    rw [if_pos hnew, hcut, checked_ok_bind, hcutHeld.string, checked_ok_bind]
    refine ⟨_, rfl, .inl ⟨if_pos (.inl hend), waits_nil rfl, ?_⟩⟩
    rw [withoutNewline, if_pos (hlast.trans hend)]
  · rw [if_neg hnew]
    refine ⟨_, rfl, .inr ⟨if_neg ?_, ⟨iff_of_true rfl hboth, fun _ => hheld, fun _ => hcount⟩, rfl⟩⟩
    rintro (h | ⟨h, -⟩)
    · exact hnew ((getLast?_eq_newline hne).mp h)
    · exact hline h

/-- A text that is not empty and fits behind the line stays inside the buffers. -/
theorem printTrace_spec (hw : Waits line t) (fragment : Fragment)
    (hne : fragment.text ≠ []) (hlength : line.length + fragment.text.length ≤ 191) :
    ∃ r, printTrace fragment t = .ok r ∧ Printed line fragment.text r := by
  obtain ⟨str, hstr, hprint⟩ := printTrace_formatted fragment t
  rw [hprint]
  by_cases hline : line = []
  · subst hline
    have hfirst : t.subsequent = false := by simpa using mt hw.subsequent.mp
    rw [hfirst, if_neg Bool.false_ne_true]
    exact printFirst_spec hfirst hstr hne
  · rw [if_pos (hw.subsequent.mpr hline)]
    exact printSubsequent_spec hw hline hstr hne hlength

/-- Any other text leaves one of them. -/
theorem printTrace_outside (hw : Waits line t) (fragment : Fragment)
    (h : fragment.text ≠ [] → 191 < line.length + fragment.text.length) :
    ∃ error, printTrace fragment t = .error error := by
  obtain ⟨str, hstr, hprint⟩ := printTrace_formatted fragment t
  have hlength := fragment.length_le
  rw [hprint]
  by_cases hline : line = []
  · subst hline
    have hfirst : t.subsequent = false := by simpa using mt hw.subsequent.mp
    have hempty : fragment.text = [] := by
      by_contra hne
      have := h hne
      rw [List.length_nil] at this
      omega
    rw [hfirst, if_neg Bool.false_ne_true, hempty]
    exact printFirst_empty
  · rw [if_pos (hw.subsequent.mpr hline)]
    by_cases hempty : fragment.text = []
    · rw [hempty] at hstr ⊢
      exact printSubsequent_empty hw hline hstr
    · exact printSubsequent_long hw hline hstr (h hempty)

end

/-! ## All calls -/

theorem sinceLine_joined (history : List (List UInt8 × Option (List UInt8))) (text : List UInt8) :
    sinceLine ((text, none) :: history) = sinceLine history ++ text := by
  unfold sinceLine
  rw [List.takeWhile_cons_of_pos (by rfl), List.reverse_cons, List.map_append, List.flatten_append]
  simp

theorem sinceLine_ended (history : List (List UInt8 × Option (List UInt8)))
    (text logged : List UInt8) : sinceLine ((text, some logged) :: history) = [] := by
  unfold sinceLine
  rw [List.takeWhile_cons_of_neg (by simp)]
  rfl

theorem Lines.cons {history : List (List UInt8 × Option (List UInt8))} {text : List UInt8}
    {logged : Option (List UInt8)} (h : Lines history)
    (hlogged : ∀ line, logged = some line →
      line = (withoutNewline (sinceLine history ++ text)).take 191) :
    Lines ((text, logged) :: history) := by
  intro newer text' line older heq
  rcases last_or_before heq with ⟨hlast, rfl⟩ | ⟨newer', heq'⟩
  · obtain ⟨rfl, hline⟩ := Prod.mk.inj hlast
    exact hlogged line hline
  · exact h newer' text' line older heq'

theorem length_withoutNewline_le (text : List UInt8) :
    (withoutNewline text).length ≤ text.length := by
  unfold withoutNewline
  split
  · rw [List.length_dropLast]
    exact Nat.sub_le _ _
  · exact Nat.le_refl _

theorem fitsFrom_cons {line text : List UInt8} {texts : List (List UInt8)} :
    FitsFrom line (text :: texts) ↔
      (text ≠ [] ∧ line.length + text.length ≤ 191) ∧ FitsFrom (joinText line text) texts := by
  constructor
  · intro h
    refine ⟨h [] text texts rfl, fun before text' after heq => ?_⟩
    exact h (text :: before) text' after (by rw [heq, List.cons_append])
  · rintro ⟨hfirst, hrest⟩ before text' after heq
    cases before with
    | nil =>
      obtain ⟨rfl, rfl⟩ := List.cons.inj heq
      exact hfirst
    | cons text'' before =>
      obtain ⟨rfl, rfl⟩ := List.cons.inj heq
      exact hrest before text' after rfl

/-- One call after another, behind a line that waits. -/
theorem printAll_iff {fragments : List Fragment} {s : TraceRun}
    (hw : Waits (sinceLine s.history) s.trace) (hlines : Lines s.history) :
    (∃ s', printAll fragments s = .ok s' ∧ Lines s'.history) ↔
      FitsFrom (sinceLine s.history) (fragments.map Fragment.text) := by
  induction fragments generalizing s with
  | nil =>
    refine iff_of_true ⟨s, rfl, hlines⟩ fun before text after heq => ?_
    simp at heq
  | cons fragment fragments ih =>
    rw [List.map_cons, fitsFrom_cons, printAll]
    by_cases hfits : fragment.text ≠ [] ∧
        (sinceLine s.history).length + fragment.text.length ≤ 191
    · obtain ⟨⟨t, logged⟩, hprint, hprinted⟩ := printTrace_spec hw fragment hfits.1 hfits.2
      rw [hprint, checked_ok_bind, and_iff_right hfits]
      rcases hprinted with ⟨hjoin, hwaits, hlogged⟩ | ⟨hjoin, hwaits, hlogged⟩
      · obtain rfl : logged = _ := hlogged
        have hend := sinceLine_ended s.history fragment.text
          (withoutNewline (sinceLine s.history ++ fragment.text))
        rw [hjoin, ← hend]
        refine ih (hend ▸ hwaits) (hlines.cons fun line hline => ?_)
        have hlength := length_withoutNewline_le (sinceLine s.history ++ fragment.text)
        rw [List.length_append] at hlength
        rw [List.take_of_length_le (by omega), Option.some.inj hline]
      · obtain rfl : logged = none := hlogged
        have hnext := sinceLine_joined s.history fragment.text
        rw [hjoin, ← hnext]
        exact ih (hnext ▸ hwaits) (hlines.cons fun line hline => nomatch hline)
    · obtain ⟨error, hprint⟩ := printTrace_outside hw fragment fun hne =>
        Nat.lt_of_not_le fun hle => hfits ⟨hne, hle⟩
      rw [hprint, checked_error_bind]
      refine iff_of_false ?_ fun h => hfits h.1
      rintro ⟨s', hs', -⟩
      cases hs'

/-- The calls join exactly if no text is empty and no line is longer than 191 with its newline. -/
theorem joins_iff (fragments : List Fragment) :
    Joins fragments ↔ FitsFrom [] (fragments.map Fragment.text) := by
  refine printAll_iff (s := ⟨.reset, []⟩) waits_reset fun newer text line older heq => ?_
  simp at heq

/-- An empty text alone. -/
theorem empty_text_read_outside :
    ¬Joins [⟨[], List.not_mem_nil, by decide, ⟨fun _ => 0⟩⟩] := by
  intro h
  obtain ⟨s, hs, -⟩ := h
  obtain ⟨error, herror⟩ := printTrace_outside waits_reset
    ⟨[], List.not_mem_nil, by decide, ⟨fun _ => 0⟩⟩ fun hne => absurd rfl hne
  rw [printAll, herror] at hs
  cases hs

end Sidewalk.Location
