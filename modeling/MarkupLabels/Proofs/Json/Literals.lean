import Mathlib
import MarkupLabels.Proofs.Json.Escapes

namespace MarkupLabels.Json

variable {c : Char} {cs cs' rest rest' : List Char} {s t : CodePoints}

def splitQuote : List Char → List Char × List Char
  | [] => ([], [])
  | '"' :: rest => ([], rest)
  | '\\' :: c :: rest => ('\\' :: c :: (splitQuote rest).1, (splitQuote rest).2)
  | c :: rest => (c :: (splitQuote rest).1, (splitQuote rest).2)

def Unquoting (cs : List Char) : Prop :=
  ∀ rest, splitQuote (cs ++ rest) = (cs ++ (splitQuote rest).1, (splitQuote rest).2)

lemma Unquoting.append (h : Unquoting cs) (h' : Unquoting cs') : Unquoting (cs ++ cs') := by
  intro rest
  rw [List.append_assoc, h, h', List.append_assoc]

lemma unquoting_escaped (c : Char) : Unquoting ['\\', c] := by
  intro rest
  simp [splitQuote]

lemma unquoting_singleton (hquote : c ≠ '"') (hbackslash : c ≠ '\\') : Unquoting [c] := by
  intro rest
  simp [splitQuote, hbackslash]

lemma hexDigit_plain (n : Nat) :
    hexDigit (n % 16) ≠ '"' ∧ hexDigit (n % 16) ≠ '\\' ∧ (hexDigit (n % 16)).toNat < 128 := by
  have h : ∀ m < 16, hexDigit m ≠ '"' ∧ hexDigit m ≠ '\\' ∧ (hexDigit m).toNat < 128 := by decide
  exact h _ (Nat.mod_lt _ (by decide))

lemma unquoting_hexDigit (n : Nat) : Unquoting [hexDigit (n % 16)] :=
  unquoting_singleton (hexDigit_plain n).1 (hexDigit_plain n).2.1

lemma unquoting_unitEscape (n : Nat) : Unquoting (unitEscape n) :=
  (unquoting_escaped 'u').append ((unquoting_hexDigit _).append
    ((unquoting_hexDigit _).append ((unquoting_hexDigit _).append (unquoting_hexDigit _))))

inductive Escaped (c : Char) : List Char → Prop
  | named (letter : Char) (hletter : letter.toNat < 128) : Escaped c ['\\', letter]
  | plain (hquote : c ≠ '"') (hbackslash : c ≠ '\\') (hlow : c.toNat < 128) : Escaped c [c]
  | unit (n : Nat) : Escaped c (unitEscape n)
  | pair (m n : Nat) : Escaped c (unitEscape m ++ unitEscape n)

lemma escape_escaped (c : Char) : Escaped c (escape c) := by
  unfold escape
  by_cases hquote : c = '"'
  · rw [if_pos hquote]
    exact .named _ (by decide)
  rw [if_neg hquote]
  by_cases hbackslash : c = '\\'
  · rw [if_pos hbackslash]
    exact .named _ (by decide)
  rw [if_neg hbackslash]
  iterate 5
    split
    · exact .named _ (by decide)
  split
  · next hprintable => exact .plain hquote hbackslash (lt_of_le_of_lt (b := 126) hprintable.2 (by decide))
  · split
    · exact .unit _
    · exact .pair _ _

lemma unquoting_escape (c : Char) : Unquoting (escape c) := by
  have h := escape_escaped c
  generalize escape c = e at h
  cases h with
  | named letter => exact unquoting_escaped letter
  | plain hquote hbackslash => exact unquoting_singleton hquote hbackslash
  | unit n => exact unquoting_unitEscape n
  | pair m n => exact (unquoting_unitEscape m).append (unquoting_unitEscape n)

lemma unquoting_escapePoint (p : CodePoint) : Unquoting (escapePoint p) := by
  cases p with
  | char c => exact unquoting_escape c
  | surrogate n => exact unquoting_unitEscape _

lemma unquoting_escaped_points (s : CodePoints) : Unquoting (s.flatMap escapePoint) := by
  induction s with
  | nil => exact fun rest => rfl
  | cons p s ih => exact (unquoting_escapePoint p).append ih

lemma quotedPoints_append_inj (h : quotedPoints s ++ rest = quotedPoints t ++ rest') :
    quotedPoints s = quotedPoints t ∧ rest = rest' := by
  have hsplit : ∀ (s : CodePoints) rest, splitQuote (s.flatMap escapePoint ++ '"' :: rest) =
      (s.flatMap escapePoint, rest) := by
    intro s rest
    rw [unquoting_escaped_points]
    simp [splitQuote]
  simp only [quotedPoints, List.cons_append, List.append_assoc, List.nil_append, List.cons.injEq,
    true_and] at h
  have hboth := congrArg splitQuote h
  rw [hsplit, hsplit, Prod.mk.injEq] at hboth
  rw [quotedPoints, quotedPoints, hboth.1]
  exact ⟨rfl, hboth.2⟩

lemma quotedPoints_inj (hs : s.Unpaired) (ht : t.Unpaired) (h : quotedPoints s = quotedPoints t) :
    s = t := by
  have hbody : s.flatMap escapePoint = t.flatMap escapePoint :=
    List.append_cancel_right (List.cons.inj h).2
  have hunits := congrArg units? hbody
  rw [units?_escaped, units?_escaped, Option.some.injEq] at hunits
  rw [← joined_units hs, hunits, joined_units ht]

lemma unitEscape_ascii {n : Nat} (hc : c ∈ unitEscape n) : c.toNat < 128 := by
  simp only [unitEscape, List.mem_cons, List.not_mem_nil, or_false] at hc
  rcases hc with rfl | rfl | rfl | rfl | rfl | rfl
  · decide
  · decide
  all_goals exact (hexDigit_plain _).2.2

lemma escape_ascii {d : Char} (hc : c ∈ escape d) : c.toNat < 128 := by
  have h := escape_escaped d
  generalize escape d = e at h hc
  cases h with
  | named letter hletter =>
    rcases List.mem_pair.mp hc with rfl | rfl
    · decide
    · exact hletter
  | plain _ _ hlow => rwa [List.mem_singleton.mp hc]
  | unit n => exact unitEscape_ascii hc
  | pair m n => exact (List.mem_append.mp hc).elim unitEscape_ascii unitEscape_ascii

lemma quotedPoints_ascii (hc : c ∈ quotedPoints s) : c.toNat < 128 := by
  rw [quotedPoints, List.mem_cons, List.mem_append, List.mem_singleton, List.mem_flatMap] at hc
  rcases hc with rfl | ⟨p, -, hp⟩ | rfl
  · decide
  · cases p with
    | char d => exact escape_ascii hp
    | surrogate n => exact unitEscape_ascii hp
  · decide

end MarkupLabels.Json
