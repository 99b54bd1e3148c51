import Mathlib.Data.List.Basic
import ScriptBackend.Symbol.Basic

/-!
# Script identities

The written form of a script determines its trigger and its name, whatever characters the name has:
no trigger's name has a comma, so the first comma of the written form ends the trigger's name. A
trigger's name in turn is a word without digits and, for the numbered triggers, the digits of the
number, so the first digit ends the word. Different scripts can then have the same identity only
where the digest takes different bytes to the same value.
-/

namespace ScriptBackend

/-- Characters of a class in front of a rest that starts with none are taken exactly. -/
private theorem takeWhile_append_of_class {inClass : Char → Bool} {before after : List Char}
    (hbefore : ∀ c ∈ before, inClass c = true) (hafter : ∀ c ∈ after.head?, inClass c = false) :
    (before ++ after).takeWhile inClass = before := by
  rw [List.takeWhile_append_of_pos hbefore]
  cases after with
  | nil => exact List.append_nil before
  | cons c rest =>
    rw [List.takeWhile_cons_of_neg (by simpa using hafter c rfl), List.append_nil]

/-- A text is split in one way only into characters of a class and a rest that starts with none. -/
private theorem append_inj_of_class {inClass : Char → Bool}
    {before before' after after' : List Char} (h : before ++ after = before' ++ after')
    (hbefore : ∀ c ∈ before, inClass c = true) (hbefore' : ∀ c ∈ before', inClass c = true)
    (hafter : ∀ c ∈ after.head?, inClass c = false)
    (hafter' : ∀ c ∈ after'.head?, inClass c = false) : before = before' ∧ after = after' := by
  have heq : before = before' := by
    rw [← takeWhile_append_of_class hbefore hafter, h, takeWhile_append_of_class hbefore' hafter']
  subst heq
  exact ⟨rfl, List.append_cancel_left h⟩

namespace Trigger

/-- The word that the name of a trigger starts with: the whole name if it has no number. -/
def word : Trigger → String
  | .opNpc _ => "opnpc"
  | .opLoc _ => "oploc"
  | .opObj _ => "opobj"
  | .opHeld _ => "opheld"
  | trigger => trigger.name

/-- The number of a trigger. -/
def number? : Trigger → Option UInt8
  | .opNpc number | .opLoc number | .opObj number | .opHeld number => some number
  | _ => none

/-- The digits that the name of a trigger ends with. -/
def digits (trigger : Trigger) : List Char :=
  trigger.number?.elim [] fun number => Nat.toDigits 10 number.toNat

/-- A name is its word and its digits. -/
theorem toList_name (trigger : Trigger) :
    trigger.name.toList = trigger.word.toList ++ trigger.digits := by
  cases trigger <;> simp [name, word, digits, number?]

/-- A word has neither digits nor commas. -/
theorem not_isDigit_of_mem_word (trigger : Trigger) :
    ∀ c ∈ trigger.word.toList, c.isDigit = false ∧ c ≠ ',' := by
  cases trigger <;> simp [word, name]

/-- The digits of a name are digits. -/
theorem isDigit_of_mem_digits {trigger : Trigger} {c : Char} (h : c ∈ trigger.digits) :
    c.isDigit = true := by
  unfold digits at h
  cases hnumber : trigger.number? with
  | none =>
    rw [hnumber] at h
    cases h
  | some number =>
    rw [hnumber] at h
    exact Nat.isDigit_of_mem_toDigits (by decide) (by decide) h

/-- The number of a trigger can be read off its digits. -/
theorem number?_eq_of_digits {s t : Trigger} (h : s.digits = t.digits) :
    s.number? = t.number? := by
  unfold digits at h
  cases hs : s.number? with
  | none =>
    cases ht : t.number? with
    | none => rfl
    | some number =>
      rw [hs, ht] at h
      exact absurd h.symm Nat.toDigits_ne_nil
  | some number =>
    cases ht : t.number? with
    | none =>
      rw [hs, ht] at h
      exact absurd h Nat.toDigits_ne_nil
    | some other =>
      rw [hs, ht] at h
      have hnat : number.toNat = other.toNat := by
        simpa using congrArg (fun digits => Nat.ofDigitChars 10 digits 0) h
      rw [UInt8.toNat_inj.mp hnat]

/-- The word tells the kind of a trigger, which has no other part than its number. -/
theorem eq_of_word_of_number? {s t : Trigger} (hword : s.word = t.word)
    (hnumber : s.number? = t.number?) : s = t := by
  cases s <;> cases t <;> simp_all [word, number?, name]

/-- No two triggers have the same name. -/
theorem name_injective : Function.Injective name := by
  intro s t h
  have hlist : s.word.toList ++ s.digits = t.word.toList ++ t.digits := by
    rw [← toList_name, ← toList_name, h]
  have hword (trigger : Trigger) : ∀ c ∈ trigger.word.toList, (!c.isDigit) = true := by
    intro c hc
    rw [(not_isDigit_of_mem_word trigger c hc).1]
    rfl
  have hdigits (trigger : Trigger) : ∀ c ∈ trigger.digits.head?, (!c.isDigit) = false := by
    intro c hc
    rw [isDigit_of_mem_digits (List.mem_of_mem_head? hc)]
    rfl
  -- the first digit of a name ends its word, if there is one
  obtain ⟨hwords, hnumbers⟩ :=
    append_inj_of_class hlist (hword s) (hword t) (hdigits s) (hdigits t)
  exact eq_of_word_of_number? (String.toList_inj.mp hwords) (number?_eq_of_digits hnumbers)

/-- No trigger's name has a comma. -/
theorem ne_comma_of_mem_name {trigger : Trigger} {c : Char} (h : c ∈ trigger.name.toList) :
    c ≠ ',' := by
  rw [toList_name] at h
  rcases List.mem_append.mp h with hword | hdigit
  · exact (not_isDigit_of_mem_word trigger c hword).2
  · rintro rfl
    exact absurd (isDigit_of_mem_digits hdigit) (by decide)

end Trigger

namespace Text

/-- The bytes of a text in UTF-8. -/
def bytes (text : String) : List UInt8 := text.toUTF8.data.toList

/-- A text can be read off its bytes. -/
theorem bytes_injective : Function.Injective bytes := fun _ _ h =>
  String.toByteArray_inj.mp (ByteArray.ext (Array.toList_inj.mp h))

/-- Whether the digest takes two different byte strings to the same value. -/
def Collide (seed : UInt64) (first second : List UInt8) : Prop :=
  first ≠ second ∧ digestBytes seed first = digestBytes seed second

/-- Texts of the same digest are the same text, or their bytes collide. -/
theorem digest_eq_iff {seed : UInt64} {first second : String} :
    digest seed first = digest seed second ↔
      first = second ∨ Collide seed (bytes first) (bytes second) := by
  constructor
  · intro h
    by_cases heq : first = second
    · exact .inl heq
    · exact .inr ⟨fun hbytes => heq (bytes_injective hbytes), h⟩
  · rintro (rfl | hcollide)
    · rfl
    · exact hcollide.2

end Text

namespace ScriptSymbol

/-- The characters of a written form. -/
theorem toList_text (script : ScriptSymbol) :
    script.text.toList =
      '[' :: (script.trigger.name.toList ++ ',' :: (script.name.toList ++ [']'])) := by
  simp [text]

/-- The written form states the trigger and the name, and nothing else. -/
theorem text_eq_iff {s t : ScriptSymbol} :
    s.text = t.text ↔ s.trigger = t.trigger ∧ s.name = t.name := by
  constructor
  · intro h
    have hlist := congrArg String.toList h
    rw [toList_text, toList_text, List.cons.injEq] at hlist
    have hname (trigger : Trigger) : ∀ c ∈ trigger.name.toList, (c != ',') = true :=
      fun c hc => bne_iff_ne.mpr (Trigger.ne_comma_of_mem_name hc)
    -- the first comma ends the trigger's name, while the script's own name may have more of them
    obtain ⟨htrigger, hrest⟩ := append_inj_of_class hlist.2 (hname s.trigger) (hname t.trigger)
      (by simp) (by simp)
    refine ⟨Trigger.name_injective (String.toList_inj.mp htrigger), String.toList_inj.mp ?_⟩
    exact List.append_cancel_right (List.cons.inj hrest).2
  · rintro ⟨htrigger, hname⟩
    rw [text, text, htrigger, hname]

/-- What the identity of a script rests on, for scripts of any trigger and any name. Two scripts
have the same written form exactly if they have the same trigger and the same name. They have the
same identity exactly if that is so or the digest takes the different bytes of their written forms
to the same value, of which nothing else is used than that it is a function of the bytes. The types
that a script states change neither its written form nor its identity. -/
theorem identity_exact (s t : ScriptSymbol) :
    (s.text = t.text ↔ s.trigger = t.trigger ∧ s.name = t.name) ∧
      (s.id = t.id ↔ (s.trigger = t.trigger ∧ s.name = t.name) ∨
        Text.Collide ScriptId.seed (Text.bytes s.text) (Text.bytes t.text)) ∧
      ∀ parameters returns : List Ty,
        let restated := { s with parameters := parameters, returns := returns }
        restated.text = s.text ∧ restated.id = s.id := by
  refine ⟨text_eq_iff, ?_, fun parameters returns => ⟨rfl, id_congr rfl rfl⟩⟩
  rw [← text_eq_iff, ← Text.digest_eq_iff, id, id, ScriptId.mk.injEq]

end ScriptSymbol

end ScriptBackend
