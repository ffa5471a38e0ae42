import Mathlib
import MarkupLabels.Proofs.Json.Literals
import MarkupLabels.Proofs.Source.Scanning
import MarkupLabels.Source.Insertion

namespace MarkupLabels

namespace Source

def IsAttributeName (cs : List Char) : Prop :=
  ∃ name, name ≠ [] ∧ (∀ c ∈ name, isTagNameChar c) ∧
    (cs = name ∨ ∃ own, own ≠ [] ∧ (∀ c ∈ own, isTagNameChar c) ∧ cs = name ++ ':' :: own)

namespace IsAttributeName

variable {cs rest : List Char}

lemma of_all (hne : cs ≠ []) (h : cs.all isTagNameChar) : IsAttributeName cs :=
  ⟨cs, hne, List.all_eq_true.mp h, .inl rfl⟩

lemma exists_cons (h : IsAttributeName cs) :
    ∃ c more, cs = c :: more ∧ isTagNameChar c ∧ ∀ d ∈ more, isTagNameChar d ∨ d = ':' := by
  obtain ⟨name, hne, hname, rfl | ⟨own, -, hown, rfl⟩⟩ := h
  · obtain ⟨c, more, rfl⟩ := List.exists_cons_of_ne_nil hne
    exact ⟨c, more, rfl, hname c (by simp), fun d hd => .inl (hname d (List.mem_cons_of_mem _ hd))⟩
  · obtain ⟨c, more, rfl⟩ := List.exists_cons_of_ne_nil hne
    refine ⟨c, more ++ ':' :: own, rfl, hname c (by simp), fun d hd => ?_⟩
    rcases List.mem_append.mp hd with hd | hd
    · exact .inl (hname d (List.mem_cons_of_mem _ hd))
    · rcases List.mem_cons.mp hd with rfl | hd
      · exact .inr rfl
      · exact .inl (hown d hd)

lemma attributeNameLength_tail {c : Char} (h : IsAttributeName (c :: cs)) :
    attributeNameLength (cs ++ '=' :: rest) = cs.length := by
  have hequals : isTagNameChar '=' = false ∧ isBlank '=' = false := by decide
  obtain ⟨name, hne, hname, heq | ⟨own, hown, hchars, heq⟩⟩ := h
  · subst heq
    have := attributeNameLength_append cs [] (w := '=' :: rest)
      (fun d hd => hname d (List.mem_cons_of_mem _ hd)) (by simp)
      (by simpa using hequals.2) (by simpa using hequals.1)
    simpa using this
  · obtain ⟨d, name, rfl⟩ := List.exists_cons_of_ne_nil hne
    obtain ⟨rfl, rfl⟩ := List.cons.inj heq
    have := attributeNameLength_namespaced name [] [] own (w := '=' :: rest)
      (fun d hd => hname d (List.mem_cons_of_mem _ hd)) (by simp) (by simp) hchars hown
      (by simpa using hequals.1)
    simpa using this

end IsAttributeName

def attributeLexemes (a : Attribute) : List Lexeme :=
  ⟨.attributeName, a.name.toList⟩ :: ⟨.equals, ['=']⟩ ::
    if '"' ∉ a.writtenValue.toList then
      [⟨.attributeString, '"' :: (a.writtenValue.toList ++ ['"'])⟩]
    else if '\'' ∉ a.writtenValue.toList then
      [⟨.attributeString, '\'' :: (a.writtenValue.toList ++ ['\''])⟩]
    else
      [⟨.containerOpen .value, ['\x7b']⟩, ⟨.string, Json.quoted a.writtenValue.toList⟩,
        ⟨.containerClose .value, ['\x7d']⟩]

lemma markup_cases (a : Attribute) :
    (∃ q, (q = '"' ∨ q = '\'') ∧ q ∉ a.writtenValue.toList ∧
      a.markup = a.name.toList ++ '=' :: q :: (a.writtenValue.toList ++ [q]) ∧
      attributeLexemes a = [⟨.attributeName, a.name.toList⟩, ⟨.equals, ['=']⟩,
        ⟨.attributeString, q :: (a.writtenValue.toList ++ [q])⟩]) ∨
    ('"' ∈ a.writtenValue.toList ∧ '\'' ∈ a.writtenValue.toList ∧
      a.markup = a.name.toList ++ '=' :: '\x7b' :: (Json.quoted a.writtenValue.toList ++ ['\x7d']) ∧
      attributeLexemes a = [⟨.attributeName, a.name.toList⟩, ⟨.equals, ['=']⟩,
        ⟨.containerOpen .value, ['\x7b']⟩, ⟨.string, Json.quoted a.writtenValue.toList⟩,
        ⟨.containerClose .value, ['\x7d']⟩]) := by
  unfold Attribute.markup attributeLexemes
  by_cases h : '"' ∉ a.writtenValue.toList
  · exact .inl ⟨'"', .inl rfl, h, by simp [h], by simp [h]⟩
  · by_cases h' : '\'' ∉ a.writtenValue.toList
    · exact .inl ⟨'\'', .inr rfl, h', by simp [h, h'], by simp [h, h']⟩
    · exact .inr ⟨by simpa using h, by simpa using h', by simp [h, h'], by simp [h, h']⟩

section Values

lemma scan_quoted {q : Char} {value : List Char} (hq : q ∉ value) (rest : List Char) :
    (scan (scanQuoted q) () (value ++ q :: rest)).1 = value.length + 1 := by
  induction value with
  | nil => simp [scan, scanQuoted]
  | cons c value ih =>
    have hc : c ≠ q := by
      rintro rfl
      simp at hq
    have := ih fun hm => hq (List.mem_cons_of_mem _ hm)
    simp [scan, scanQuoted, hc, this]

def Inert (cs : List Char) : Prop :=
  ∀ rest, (scan (scanString '"') false (cs ++ rest)).1 =
    (scan (scanString '"') false rest).1 + cs.length

lemma Inert.append {cs ds : List Char} (hc : Inert cs) (hd : Inert ds) : Inert (cs ++ ds) := by
  intro rest
  rw [List.append_assoc, hc, hd, List.length_append]
  omega

lemma inert_char {c : Char} (h : c ≠ '"' ∧ c ≠ '\\') : Inert [c] := by
  intro rest
  simp [scan, scanString, h]

lemma inert_escape (c : Char) : Inert ['\\', c] := by
  intro rest
  simp [scan, scanString]

lemma inert_unitEscape (n : Nat) : Inert (Json.unitEscape n) := by
  have hdigit : ∀ m, Inert [Json.hexDigit (m % 16)] := fun m =>
    inert_char ⟨(Json.hexDigit_plain m).1, (Json.hexDigit_plain m).2.1⟩
  exact (inert_escape 'u').append ((hdigit _).append ((hdigit _).append ((hdigit _).append (hdigit _))))

lemma inert_jsonEscape (c : Char) : Inert (Json.escape c) := by
  have h := Json.escape_escaped c
  generalize Json.escape c = e at h
  cases h with
  | named letter => exact inert_escape letter
  | plain hquote hbackslash => exact inert_char ⟨hquote, hbackslash⟩
  | unit n => exact inert_unitEscape n
  | pair m n => exact (inert_unitEscape m).append (inert_unitEscape n)

lemma scan_quotedBody (cs rest : List Char) :
    (scan (scanString '"') false (Json.quotedBody cs ++ '"' :: rest)).1 =
      (Json.quotedBody cs).length + 1 := by
  have hinert : Inert (Json.quotedBody cs) := by
    induction cs with
    | nil => exact fun rest => by simp [Json.quotedBody]
    | cons c cs ih => exact (inert_jsonEscape c).append ih
  rw [hinert, scan, scanString, if_neg (by simp), if_pos rfl]
  simp [Nat.add_comm]

end Values

end Source

end MarkupLabels
