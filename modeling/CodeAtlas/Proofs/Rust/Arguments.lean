import CodeAtlas.Proofs.Rust.Paths
import Mathlib.Data.List.Infix
import Mathlib.Logic.Function.Iterate

/-!
# CodeAtlas.Proofs.Rust.Arguments

What is left of a text when type arguments are left out of it.

* Where brackets pair up, the characters that are kept are those outside of all pairs
  (`outside_iff`).
* Separators in a row are joined at once; the same comes of passes over the text, each of which puts
  one separator in the place of two, until there are no two in a row (`exists_passes`).  A pass may
  bring separators together that it does not look at again, so one pass is not enough; but it
  shortens the text.
* The outcome is a normal form (`Normal`), and a normal form is left as it is.

Main statement: `withoutArguments_normal`.
-/

namespace CodeAtlas.Rust.Path

/-! ## Brackets -/

/-- Whether the brackets of a text pair up: none closes that has not been opened, and none stays
open. -/
structure Balanced (cs : List Char) : Prop where
  opened : ∀ n, (cs.take n).count '>' ≤ (cs.take n).count '<'
  closed : cs.count '<' = cs.count '>'

/-- A text whose brackets pair up, and the characters outside of all pairs. -/
inductive Outside : List Char → List Char → Prop
  | nil : Outside [] []
  | plain {c : Char} {cs kept : List Char} :
      c ≠ '<' → c ≠ '>' → Outside cs kept → Outside (c :: cs) (c :: kept)
  | pair {inner cs dropped kept : List Char} :
      Outside inner dropped → Outside cs kept → Outside ('<' :: (inner ++ '>' :: cs)) kept

theorem outsideBrackets_cons {c : Char} (hopen : c ≠ '<') (hclose : c ≠ '>') (depth : Nat)
    (cs : List Char) :
    outsideBrackets depth (c :: cs) =
      if depth = 0 then c :: outsideBrackets depth cs else outsideBrackets depth cs := by
  rw [outsideBrackets]
  · exact fun h => hopen h
  · exact fun h => hclose h

/-- Outside of all brackets the scan keeps what is outside, inside of some it keeps nothing; either
way it comes out at the depth at which it went in. -/
theorem Outside.scan {cs kept : List Char} (h : Outside cs kept) (depth : Nat)
    (rest : List Char) :
    outsideBrackets depth (cs ++ rest) =
      (if depth = 0 then kept else []) ++ outsideBrackets depth rest := by
  induction h generalizing depth rest with
  | nil => simp
  | @plain c cs kept hopen hclose _ ih =>
      rw [List.cons_append, outsideBrackets_cons hopen hclose, ih]
      split <;> rfl
  | @pair inner cs dropped kept _ _ ihinner ihrest =>
      rw [List.cons_append, List.append_assoc, List.cons_append, outsideBrackets, ihinner,
        if_neg (Nat.succ_ne_zero depth), List.nil_append, outsideBrackets, Nat.add_sub_cancel,
        ihrest]

theorem Outside.balanced {cs kept : List Char} (h : Outside cs kept) : Balanced cs := by
  induction h with
  | nil => exact ⟨fun n => by simp, rfl⟩
  | @plain c cs kept hopen hclose _ ih =>
      refine ⟨fun n => ?_, by simpa [hopen, hclose] using ih.closed⟩
      cases n with
      | zero => simp
      | succ n => simpa [hopen, hclose] using ih.opened n
  | @pair inner cs dropped kept _ _ ihinner ihrest =>
      have hinner := ihinner.closed
      have hrest := ihrest.closed
      refine ⟨fun n => ?_, by grind⟩
      cases n with
      | zero => simp
      | succ n =>
          rw [List.take_succ_cons, List.take_append]
          -- The cut is inside of the pair, or what it cuts off stands behind the pair.
          cases hm : n - inner.length with
          | zero =>
              have hopened := ihinner.opened n
              grind
          | succ m =>
              have hopened := ihrest.opened m
              rw [List.take_of_length_le (by omega), List.take_succ_cons]
              grind

/-- A text with more closing brackets than opening ones, some of them open before it, has one that
closes the outermost of those. -/
theorem exists_closing {cs : List Char} {depth : Nat} (h : cs.count '<' + depth < cs.count '>') :
    ∃ inner rest, cs = inner ++ '>' :: rest ∧ inner.count '>' = inner.count '<' + depth ∧
      ∀ n, (inner.take n).count '>' ≤ (inner.take n).count '<' + depth := by
  induction cs generalizing depth with
  | nil => simp at h
  | cons c cs ih =>
      by_cases hopen : c = '<'
      · subst hopen
        have hdeeper : cs.count '<' + (depth + 1) < cs.count '>' := by
          simp at h
          omega
        obtain ⟨inner, rest, rfl, hcount, hbefore⟩ := ih hdeeper
        refine ⟨'<' :: inner, rest, rfl, by simp; omega, fun n => ?_⟩
        cases n with
        | zero => simp
        | succ n =>
            have hn := hbefore n
            grind
      · by_cases hclose : c = '>'
        · subst hclose
          cases depth with
          | zero => exact ⟨[], cs, rfl, rfl, fun n => by simp⟩
          | succ depth =>
              have hhigher : cs.count '<' + depth < cs.count '>' := by
                simp at h
                omega
              obtain ⟨inner, rest, rfl, hcount, hbefore⟩ := ih hhigher
              refine ⟨'>' :: inner, rest, rfl, by simp; omega, fun n => ?_⟩
              cases n with
              | zero => simp
              | succ n =>
                  have hn := hbefore n
                  grind
        · have hsame : cs.count '<' + depth < cs.count '>' := by
            simpa [hopen, hclose] using h
          obtain ⟨inner, rest, rfl, hcount, hbefore⟩ := ih hsame
          refine ⟨c :: inner, rest, rfl, by simpa [hopen, hclose] using hcount, fun n => ?_⟩
          cases n with
          | zero => simp
          | succ n => simpa [hopen, hclose] using hbefore n

theorem Balanced.tail {c : Char} {cs : List Char} (hopen : c ≠ '<') (hclose : c ≠ '>')
    (h : Balanced (c :: cs)) : Balanced cs := by
  refine ⟨fun n => ?_, by simpa [hopen, hclose] using h.closed⟩
  simpa [hopen, hclose] using h.opened (n + 1)

/-- Every opening bracket has its partner. -/
theorem Balanced.exists_pair {cs : List Char} (h : Balanced ('<' :: cs)) :
    ∃ inner rest, cs = inner ++ '>' :: rest ∧ Balanced inner ∧ Balanced rest := by
  have hclosed := h.closed
  have hmore : cs.count '<' + 0 < cs.count '>' := by
    simp at hclosed
    omega
  obtain ⟨inner, rest, rfl, hcount, hbefore⟩ := exists_closing hmore
  refine ⟨inner, rest, rfl, ⟨hbefore, hcount.symm⟩, fun n => ?_, ?_⟩
  · have hopened := h.opened (inner.length + 1 + n + 1)
    rw [List.take_succ_cons, List.take_append, List.take_of_length_le (by omega),
      show inner.length + 1 + n - inner.length = n + 1 by omega, List.take_succ_cons] at hopened
    grind
  · grind

theorem Balanced.exists_outside : {cs : List Char} → Balanced cs → ∃ kept, Outside cs kept
  | [], _ => ⟨[], .nil⟩
  | c :: cs, h => by
      by_cases hopen : c = '<'
      · subst hopen
        obtain ⟨inner, rest, hcs, hinner, hrest⟩ := h.exists_pair
        obtain ⟨dropped, hdropped⟩ := exists_outside hinner
        obtain ⟨kept, hkept⟩ := exists_outside hrest
        rw [hcs]
        exact ⟨kept, .pair hdropped hkept⟩
      · by_cases hclose : c = '>'
        · subst hclose
          have hopened := h.opened 1
          simp at hopened
        · obtain ⟨kept, hkept⟩ := exists_outside (h.tail hopen hclose)
          exact ⟨c :: kept, .plain hopen hclose hkept⟩
termination_by cs => cs.length
decreasing_by
  · grind
  · grind
  · simp

/-- Where brackets pair up, the scan keeps the characters outside of all pairs. -/
theorem outside_iff {cs kept : List Char} :
    Outside cs kept ↔ Balanced cs ∧ kept = outsideBrackets 0 cs := by
  have hscan : ∀ {kept}, Outside cs kept → kept = outsideBrackets 0 cs := by
    intro kept h
    have hwhole := h.scan 0 []
    rw [List.append_nil, if_pos rfl, outsideBrackets, List.append_nil] at hwhole
    exact hwhole.symm
  constructor
  · exact fun h => ⟨h.balanced, hscan h⟩
  · rintro ⟨h, rfl⟩
    obtain ⟨kept, hkept⟩ := h.exists_outside
    rw [← hscan hkept]
    exact hkept

theorem brackets_notMem_outsideBrackets (depth : Nat) (cs : List Char) :
    '<' ∉ outsideBrackets depth cs ∧ '>' ∉ outsideBrackets depth cs := by
  fun_induction outsideBrackets depth cs with
  | case1 => simp
  | case2 depth cs ih => exact ih
  | case3 depth cs ih => exact ih
  | case4 c cs hopen hclose ih =>
      simp only [List.mem_cons, not_or]
      exact ⟨⟨fun h => hopen h.symm, ih.1⟩, ⟨fun h => hclose h.symm, ih.2⟩⟩
  | case5 depth c cs hopen hclose hdepth ih => exact ih

theorem length_outsideBrackets_le (depth : Nat) (cs : List Char) :
    (outsideBrackets depth cs).length ≤ cs.length := by
  fun_induction outsideBrackets depth cs <;> simp <;> omega

/-! ## Separators in a row -/

/-- Whether there are two separators in a row somewhere. -/
def Doubled (cs : List Char) : Prop := [':', ':', ':', ':'] <:+: cs

/-- One pass over a text, from the left, that puts one separator in the place of two and does not
look at it again. -/
def joinPass : List Char → List Char
  | ':' :: ':' :: ':' :: ':' :: cs => ':' :: ':' :: joinPass cs
  | c :: cs => c :: joinPass cs
  | [] => []

theorem length_joinPass_le (cs : List Char) : (joinPass cs).length ≤ cs.length := by
  fun_induction joinPass cs <;> simp <;> omega

theorem length_joinPass_lt {cs : List Char} (h : Doubled cs) :
    (joinPass cs).length < cs.length := by
  fun_induction joinPass cs with
  | case1 cs =>
      have hle := length_joinPass_le cs
      grind
  | case2 c cs hstart ih =>
      rcases List.infix_cons_iff.1 h with hstarts | hinside
      · obtain ⟨rest, hrest⟩ := hstarts
        simp only [List.cons_append, List.nil_append, List.cons.injEq] at hrest
        exact absurd hrest.2.symm (hstart rest hrest.1.symm)
      · simpa using ih hinside
  | case3 => simp [Doubled] at h

theorem joinSeparators_colons (k : Nat) (cs : List Char) :
    joinSeparators (List.replicate (k + 4) ':' ++ cs) =
      joinSeparators (List.replicate (k + 2) ':' ++ cs) := by
  simp only [List.replicate_succ, List.cons_append]
  rw [joinSeparators]

/-- What stands before and after another character has nothing to do with each other. -/
theorem joinSeparators_append_cons {c : Char} (hc : c ≠ ':') (front cs : List Char) :
    joinSeparators (front ++ c :: cs) = joinSeparators front ++ c :: joinSeparators cs := by
  fun_induction joinSeparators front with
  | case1 rest ih =>
      rw [← ih]
      simp only [List.cons_append]
      rw [joinSeparators]
  | case2 d rest hstart ih =>
      rw [List.cons_append, List.cons_append, ← ih, joinSeparators]
      rintro tail rfl htail
      -- the character lies in what a separator would start with, or behind it
      rcases rest with _ | ⟨second, _ | ⟨third, _ | ⟨fourth, rest⟩⟩⟩ <;> simp_all
  | case3 =>
      rw [List.nil_append, List.nil_append, joinSeparators]
      exact fun _ h _ => hc h

/-- A pass changes nothing about what separators are joined to. -/
theorem joinSeparators_joinPass (cs : List Char) :
    joinSeparators (joinPass cs) = joinSeparators cs := by
  -- the colons that stand before what the pass looks at
  suffices h : ∀ k, joinSeparators (List.replicate k ':' ++ joinPass cs) =
      joinSeparators (List.replicate k ':' ++ cs) by simpa using h 0
  fun_induction joinPass cs with
  | case1 cs ih =>
      intro k
      have hpass := ih (k + 2)
      rw [← joinSeparators_colons k cs] at hpass
      simpa [List.replicate_add] using hpass
  | case2 c cs hstart ih =>
      intro k
      by_cases hc : c = ':'
      · subst hc
        simpa [List.replicate_add] using ih (k + 1)
      · rw [joinSeparators_append_cons hc, joinSeparators_append_cons hc]
        have hpass := ih 0
        rw [List.replicate_zero, List.nil_append, List.nil_append] at hpass
        rw [hpass]
  | case3 => exact fun k => rfl

/-- Colons at the start are not made more. -/
theorem colons_of_joinSeparators {k : Nat} {cs : List Char}
    (h : List.replicate k ':' <+: joinSeparators cs) : List.replicate k ':' <+: cs := by
  fun_induction joinSeparators cs generalizing k with
  | case1 cs ih =>
      have hlonger : List.replicate k ':' <+: List.replicate (k + 2) ':' :=
        List.prefix_replicate_iff.2 (by simp)
      refine hlonger.trans ?_
      simpa [List.replicate_succ] using ih h
  | case2 c cs hstart ih =>
      cases k with
      | zero => exact List.nil_prefix
      | succ k =>
          rw [List.replicate_succ, List.cons_prefix_cons] at h ⊢
          exact ⟨h.1, ih h.2⟩
  | case3 => exact h

theorem not_doubled_joinSeparators (cs : List Char) : ¬ Doubled (joinSeparators cs) := by
  fun_induction joinSeparators cs with
  | case1 cs ih => exact ih
  | case2 c cs hstart ih =>
      intro h
      rcases List.infix_cons_iff.1 h with hstarts | hinside
      · rw [List.cons_prefix_cons] at hstarts
        obtain ⟨rest, rfl⟩ := colons_of_joinSeparators (k := 3) hstarts.2
        exact hstart rest hstarts.1.symm rfl
      · exact ih hinside
  | case3 => simp [Doubled]

theorem joinSeparators_of_not_doubled {cs : List Char} (h : ¬ Doubled cs) :
    joinSeparators cs = cs := by
  fun_induction joinSeparators cs with
  | case1 cs ih => exact absurd (List.prefix_append [':', ':', ':', ':'] cs).isInfix h
  | case2 c cs hstart ih =>
      rw [ih fun hinside => h (List.infix_cons_iff.2 (.inr hinside))]
  | case3 => rfl

/-- Passes as long as there are two separators in a row come to an end, and then separators are
joined. -/
theorem exists_passes (cs : List Char) :
    ∃ passes ≤ cs.length, (∀ n < passes, Doubled (joinPass^[n] cs)) ∧
      joinPass^[passes] cs = joinSeparators cs := by
  by_cases h : Doubled cs
  · have hshorter := length_joinPass_lt h
    obtain ⟨passes, hle, hdoubled, hend⟩ := exists_passes (joinPass cs)
    refine ⟨passes + 1, by omega, fun n hn => ?_, ?_⟩
    · cases n with
      | zero => exact h
      | succ n => exact hdoubled n (by omega)
    · rw [Function.iterate_succ_apply, hend, joinSeparators_joinPass]
  · exact ⟨0, Nat.zero_le _, fun n hn => absurd hn (Nat.not_lt_zero n),
      (joinSeparators_of_not_doubled h).symm⟩
termination_by cs.length

/-! ## Separators at the end -/

theorem dropSeparators_suffix (cs : List Char) : dropSeparators cs <:+ cs := by
  fun_induction dropSeparators cs with
  | case1 cs ih => exact ih.trans ((List.suffix_cons _ _).trans (List.suffix_cons _ _))
  | case2 cs => exact List.suffix_refl cs

theorem not_separator_prefix_dropSeparators (cs : List Char) :
    ¬ [':', ':'] <+: dropSeparators cs := by
  fun_induction dropSeparators cs with
  | case1 cs ih => exact ih
  | case2 cs hstart =>
      rintro ⟨rest, rfl⟩
      exact hstart rest rfl

theorem trimSeparators_prefix (cs : List Char) : trimSeparators cs <+: cs := by
  rw [trimSeparators, ← List.reverse_suffix, List.reverse_reverse]
  exact dropSeparators_suffix cs.reverse

theorem not_separator_suffix_trimSeparators (cs : List Char) :
    ¬ [':', ':'] <:+ trimSeparators cs := by
  rw [trimSeparators, ← List.reverse_prefix, List.reverse_reverse]
  exact not_separator_prefix_dropSeparators cs.reverse

theorem trimSeparators_of_not_suffix {cs : List Char} (h : ¬ [':', ':'] <:+ cs) :
    trimSeparators cs = cs := by
  rw [trimSeparators, dropSeparators, List.reverse_reverse]
  rintro rest hrest
  refine h ⟨rest.reverse, ?_⟩
  rw [← List.reverse_reverse cs, hrest]
  simp

/-! ## Normal forms -/

/-- Whether a text has no brackets, no two separators in a row and no separator at its end. -/
structure Normal (cs : List Char) : Prop where
  notOpened : '<' ∉ cs
  notClosed : '>' ∉ cs
  joined : ¬ Doubled cs
  trimmed : ¬ [':', ':'] <:+ cs

theorem mem_of_mem_joinSeparators {c : Char} {cs : List Char} (h : c ∈ joinSeparators cs) :
    c ∈ cs := by
  fun_induction joinSeparators cs with
  | case1 cs ih => simpa using ih h
  | case2 d cs hstart ih =>
      rcases List.mem_cons.1 h with rfl | hmem
      · exact List.mem_cons_self
      · exact List.mem_cons_of_mem d (ih hmem)
  | case3 => exact h

theorem normal_withoutArguments (cs : List Char) : Normal (withoutArguments cs) := by
  have hstarts : withoutArguments cs <+: joinSeparators (outsideBrackets 0 cs) :=
    trimSeparators_prefix _
  obtain ⟨hopen, hclose⟩ := brackets_notMem_outsideBrackets 0 cs
  refine ⟨fun h => hopen ?_, fun h => hclose ?_, fun h => ?_,
    not_separator_suffix_trimSeparators _⟩
  · exact mem_of_mem_joinSeparators (hstarts.subset h)
  · exact mem_of_mem_joinSeparators (hstarts.subset h)
  · exact not_doubled_joinSeparators _ (h.trans hstarts.isInfix)

theorem Normal.withoutArguments_eq {cs : List Char} (h : Normal cs) :
    withoutArguments cs = cs := by
  have hplain : ∀ c ∈ cs, c ≠ '<' ∧ c ≠ '>' := fun c hc =>
    ⟨fun heq => h.notOpened (heq ▸ hc), fun heq => h.notClosed (heq ▸ hc)⟩
  rw [withoutArguments, outsideBrackets_plain hplain, joinSeparators_of_not_doubled h.joined,
    trimSeparators_of_not_suffix h.trimmed]

/-- **A path without its type arguments is a normal form**, for every text.  What is outside of
brackets is kept; separators in a row are joined by passes that come to an end; and to leave type
arguments out again changes nothing. -/
theorem withoutArguments_normal (cs : List Char) :
    (∀ kept, Outside cs kept ↔ Balanced cs ∧ kept = outsideBrackets 0 cs) ∧
    (∃ passes ≤ cs.length,
      (∀ n < passes, Doubled (joinPass^[n] (outsideBrackets 0 cs))) ∧
      ¬ Doubled (joinPass^[passes] (outsideBrackets 0 cs)) ∧
      withoutArguments cs = trimSeparators (joinPass^[passes] (outsideBrackets 0 cs))) ∧
    Normal (withoutArguments cs) ∧
    withoutArguments (withoutArguments cs) = withoutArguments cs := by
  have hnormal := normal_withoutArguments cs
  refine ⟨fun kept => outside_iff, ?_, hnormal, hnormal.withoutArguments_eq⟩
  obtain ⟨passes, hle, hdoubled, hend⟩ := exists_passes (outsideBrackets 0 cs)
  refine ⟨passes, hle.trans (length_outsideBrackets_le 0 cs), hdoubled, ?_, ?_⟩
  · rw [hend]
    exact not_doubled_joinSeparators _
  · rw [hend, withoutArguments]

example : withoutArguments "Vec::<Option<T>>::new::<>".toList = "Vec::new".toList := by
  decide +kernel

end CodeAtlas.Rust.Path
