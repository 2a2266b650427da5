/-
  ModernCppKafka.Lib.Joined — texts with a separator between them.

  Two ways to put the separators in: before each text but the first, or before each text that
  finds something written already.  They differ in the empty texts at the front.

  Main results:
    * `foldl_unlessFirst` — the first way writes the texts joined;
    * `foldl_unlessEmpty` — the second leaves out the empty texts at the front;
    * `joined_injective`  — a separator character no text contains tells the texts apart;
    * `foldl_injective`   — so the text written for a list tells the list.
-/
import Mathlib.Data.List.Infix
import Mathlib.Data.List.TakeWhile
import Mathlib.Tactic

namespace ModernCppKafka.Lib.Joined

/-- The texts, with the separator before each but the first. -/
def joined (separator : String) : List String → String
  | [] => ""
  | [text] => text
  | text :: texts => text ++ separator ++ joined separator texts

/-- What is written so far, and one more text, with a separator between if there is anything. -/
def appendUnlessEmpty (separator written text : String) : String :=
  (if written = "" then written else written ++ separator) ++ text

/-- One more text, with a separator before it unless it is the first. -/
def appendUnlessFirst (separator : String) (written : Bool × String) (text : String) :
    Bool × String :=
  (false, written.2 ++ (if written.1 then "" else separator) ++ text)

variable {separator : String}

@[simp] theorem joined_nil : joined separator [] = "" := rfl

@[simp] theorem joined_singleton (text : String) : joined separator [text] = text := rfl

theorem joined_cons_cons (text text' : String) (texts : List String) :
    joined separator (text :: text' :: texts)
      = text ++ separator ++ joined separator (text' :: texts) := rfl

/-! ## §1. The two ways. -/

/-- After the first, every text gets its separator. -/
theorem foldl_of_not_first (written : String) (texts : List String) :
    (texts.foldl (appendUnlessFirst separator) (false, written)).2 =
      joined separator (written :: texts) := by
  induction texts generalizing written with
  | nil => rfl
  | cons text texts ih =>
    rw [List.foldl_cons, joined_cons_cons]
    refine (ih (written ++ separator ++ text)).trans ?_
    cases texts with
    | nil => rfl
    | cons text' texts => simp only [joined_cons_cons, String.append_assoc]

/-- **Written but before the first**: the texts joined. -/
theorem foldl_unlessFirst (texts : List String) :
    (texts.foldl (appendUnlessFirst separator) (true, "")).2 = joined separator texts := by
  cases texts with
  | nil => rfl
  | cons text texts =>
    have hfirst : appendUnlessFirst separator (true, "") text = (false, text) := by
      simp [appendUnlessFirst]
    rw [List.foldl_cons, hfirst, foldl_of_not_first]

theorem appendUnlessEmpty_of_ne {written : String} (h : written ≠ "") (text : String) :
    appendUnlessEmpty separator written text = written ++ separator ++ text := by
  rw [appendUnlessEmpty, if_neg h]

theorem append_ne_empty {s t : String} (h : s ≠ "") : s ++ t ≠ "" := by
  simp [h]

/-- Once something is written, every text gets its separator. -/
theorem foldl_of_ne {written : String} (h : written ≠ "") (texts : List String) :
    texts.foldl (appendUnlessEmpty separator) written = joined separator (written :: texts) := by
  induction texts generalizing written with
  | nil => rfl
  | cons text texts ih =>
    rw [List.foldl_cons, appendUnlessEmpty_of_ne h,
      ih (append_ne_empty (append_ne_empty h)), joined_cons_cons]
    cases texts with
    | nil => rfl
    | cons text' texts => simp only [joined_cons_cons, String.append_assoc]

/-- **Written only between**: empty texts at the front leave no trace. -/
theorem foldl_unlessEmpty (texts : List String) :
    texts.foldl (appendUnlessEmpty separator) "" = joined separator (texts.dropWhile (· = "")) := by
  induction texts with
  | nil => rfl
  | cons text texts ih =>
    rw [List.foldl_cons]
    by_cases htext : text = ""
    · rw [List.dropWhile_cons_of_pos (by simpa using htext), ← ih, htext]
      rfl
    · have hfirst : appendUnlessEmpty separator "" text = text := by simp [appendUnlessEmpty]
      rw [List.dropWhile_cons_of_neg (by simpa using htext), hfirst, foldl_of_ne htext]

/-- With no empty texts the two ways agree. -/
theorem foldl_eq_joined {texts : List String} (h : ∀ text ∈ texts, text ≠ "") :
    texts.foldl (appendUnlessEmpty separator) "" = joined separator texts := by
  rw [foldl_unlessEmpty]
  cases texts with
  | nil => rfl
  | cons text texts =>
    rw [List.dropWhile_cons_of_neg (by simpa using h text List.mem_cons_self)]

/-- Each text is found in what is written. -/
theorem mem_joined {text : String} {texts : List String} (h : text ∈ texts) :
    ∃ before after, joined separator texts = before ++ text ++ after := by
  induction texts with
  | nil => simp at h
  | cons first texts ih =>
    cases texts with
    | nil =>
      obtain rfl := List.mem_singleton.mp h
      exact ⟨"", "", by simp⟩
    | cons second texts =>
      rw [joined_cons_cons]
      cases List.mem_cons.mp h with
      | inl heq =>
        subst heq
        exact ⟨"", separator ++ joined separator (second :: texts), by simp [String.append_assoc]⟩
      | inr hin =>
        obtain ⟨before, after, heq⟩ := ih hin
        exact ⟨first ++ separator ++ before, after, by simp [heq, String.append_assoc]⟩

/-- Only empty texts are lost at the front. -/
theorem mem_joined_dropWhile {text : String} {texts : List String} (h : text ∈ texts)
    (hne : text ≠ "") :
    ∃ before after, joined separator (texts.dropWhile (· = "")) = before ++ text ++ after := by
  apply mem_joined
  rw [← List.takeWhile_append_dropWhile (p := (· = "")) (l := texts), List.mem_append] at h
  cases h with
  | inl h => exact absurd (by simpa using List.mem_takeWhile_imp h) hne
  | inr h => exact h

/-! ## §2. Telling the texts apart. -/

/-- Cutting at the first separator is unambiguous. -/
theorem append_cons_inj {l l' r r' : List Char} {c : Char} (hl : c ∉ l) (hl' : c ∉ l')
    (h : l ++ c :: r = l' ++ c :: r') : l = l' ∧ r = r' := by
  induction l generalizing l' with
  | nil =>
    cases l' with
    | nil => exact ⟨rfl, by simpa using h⟩
    | cons d l' =>
      obtain ⟨rfl, -⟩ : c = d ∧ _ := by simpa using h
      exact absurd List.mem_cons_self hl'
  | cons d l ih =>
    cases l' with
    | nil =>
      obtain ⟨rfl, -⟩ : d = c ∧ _ := by simpa using h
      exact absurd List.mem_cons_self hl
    | cons d' l' =>
      obtain ⟨rfl, htail⟩ : d = d' ∧ l ++ c :: r = l' ++ c :: r' := by simpa using h
      obtain ⟨hl, hr⟩ := ih (fun hin => hl (List.mem_cons_of_mem d hin))
        (fun hin => hl' (List.mem_cons_of_mem d hin)) htail
      exact ⟨congrArg (d :: ·) hl, hr⟩

/-- Cutting at the last one is, too. -/
theorem append_cons_inj_last {l l' r r' : List Char} {c : Char} (hr : c ∉ r) (hr' : c ∉ r')
    (h : l ++ c :: r = l' ++ c :: r') : l = l' ∧ r = r' := by
  have hrev : r.reverse ++ c :: l.reverse = r'.reverse ++ c :: l'.reverse := by
    simpa using congrArg List.reverse h
  obtain ⟨hr, hl⟩ := append_cons_inj (by simpa using hr) (by simpa using hr') hrev
  exact ⟨List.reverse_injective hl, List.reverse_injective hr⟩

/-- A text before the separator does not contain it. -/
theorem joined_ne_of_mem {c : Char} {text : String} (h : c ∉ text.toList) {s t : String} :
    text ≠ s ++ String.singleton c ++ t := by
  intro heq
  apply h
  rw [heq]
  simp

/-- **A separator no text contains tells the texts apart**, when none of them is empty. -/
theorem joined_injective {c : Char} {texts texts' : List String}
    (h : ∀ text ∈ texts, c ∉ text.toList ∧ text ≠ "")
    (h' : ∀ text ∈ texts', c ∉ text.toList ∧ text ≠ "")
    (heq : joined (String.singleton c) texts = joined (String.singleton c) texts') :
    texts = texts' := by
  induction texts generalizing texts' with
  | nil =>
    cases texts' with
    | nil => rfl
    | cons text' rest' =>
      have hne := (h' text' List.mem_cons_self).2
      cases rest' with
      | nil => exact absurd heq.symm hne
      | cons text'' rest' =>
        rw [joined_cons_cons, joined_nil] at heq
        exact absurd heq.symm (append_ne_empty (append_ne_empty hne))
  | cons text rest ih =>
    obtain ⟨hc, hne⟩ := h text List.mem_cons_self
    cases texts' with
    | nil =>
      cases rest with
      | nil => exact absurd heq hne
      | cons text'' rest =>
        rw [joined_cons_cons, joined_nil] at heq
        exact absurd heq (append_ne_empty (append_ne_empty hne))
    | cons text' rest' =>
      obtain ⟨hc', -⟩ := h' text' List.mem_cons_self
      cases rest with
      | nil =>
        cases rest' with
        | nil => rw [joined_singleton, joined_singleton] at heq; rw [heq]
        | cons text'' rest' => exact absurd heq (joined_ne_of_mem hc)
      | cons text₂ rest =>
        cases rest' with
        | nil => exact absurd heq.symm (joined_ne_of_mem hc')
        | cons text₂' rest' =>
          rw [joined_cons_cons, joined_cons_cons] at heq
          -- the first text ends at the first separator
          have hchars : text.toList ++ c :: (joined (String.singleton c) (text₂ :: rest)).toList
              = text'.toList ++ c ::
                (joined (String.singleton c) (text₂' :: rest')).toList := by
            simpa using congrArg String.toList heq
          obtain ⟨htext, hrest⟩ := append_cons_inj hc hc' hchars
          rw [String.toList_inj.mp htext, ih (fun t ht => h t (List.mem_cons_of_mem text ht))
            (fun t ht => h' t (List.mem_cons_of_mem text' ht)) (String.toList_inj.mp hrest)]

section Texts

variable {α : Type*} {P : α → Prop} {f : α → String}

theorem map_injective_of_forall (hf : ∀ a b, P a → P b → f a = f b → a = b) {l l' : List α}
    (h : ∀ a ∈ l, P a) (h' : ∀ a ∈ l', P a) (heq : l.map f = l'.map f) : l = l' := by
  induction l generalizing l' with
  | nil => exact (List.map_eq_nil_iff.mp heq.symm).symm
  | cons a l ih =>
    cases l' with
    | nil => simp at heq
    | cons a' l' =>
      obtain ⟨hhead, htail⟩ := List.cons.inj heq
      rw [hf a a' (h a List.mem_cons_self) (h' a' List.mem_cons_self) hhead,
        ih (fun b hb => h b (List.mem_cons_of_mem a hb))
          (fun b hb => h' b (List.mem_cons_of_mem a' hb)) htail]

/-- **The text tells the list**, when its elements' texts do and are free of the separator. -/
theorem foldl_injective {c : Char} (hplain : ∀ a, P a → c ∉ (f a).toList ∧ f a ≠ "")
    (hf : ∀ a b, P a → P b → f a = f b → a = b) {l l' : List α} (h : ∀ a ∈ l, P a)
    (h' : ∀ a ∈ l', P a)
    (heq : (l.map f).foldl (appendUnlessEmpty (String.singleton c)) "" =
      (l'.map f).foldl (appendUnlessEmpty (String.singleton c)) "") : l = l' := by
  have htexts {k : List α} (hk : ∀ a ∈ k, P a) :
      ∀ text ∈ k.map f, c ∉ text.toList ∧ text ≠ "" := by
    intro text htext
    obtain ⟨a, ha, rfl⟩ := List.mem_map.mp htext
    exact hplain a (hk a ha)
  rw [foldl_eq_joined fun text ht => (htexts h text ht).2,
    foldl_eq_joined fun text ht => (htexts h' text ht).2] at heq
  exact map_injective_of_forall hf h h' (joined_injective (htexts h) (htexts h') heq)

end Texts

end ModernCppKafka.Lib.Joined
