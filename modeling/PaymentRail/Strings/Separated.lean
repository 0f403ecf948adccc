import Mathlib.Data.List.Forall2
import PaymentRail.Strings.Numeral

/-!
# Separated — texts that are taken apart in one way only

A printed value is often followed by something else: a separator, a closing bracket, or the end of the
text.  These lemmas say when the whole text tells where the value ends.

- `Decodes` : whatever follows, the text of a value tells the value and what follows
- `decodes_separated` : lists of such values between brackets
- `quoted_inj` : strings in quotes, where a quote inside is escaped
-/

namespace PaymentRail
namespace Strings
namespace Separated

variable {α : Type} {stop : Char → Bool} {e : α → Text} {R : α → α → Prop}

/-- Nothing follows, or a character that ends a value. -/
def Stops (stop : Char → Bool) (rest : Text) : Prop := ∀ c ∈ rest.head?, stop c = true

theorem stops_cons {c : Char} {rest : Text} (h : stop c = true) : Stops stop (c :: rest) := by
  intro d hd
  rw [← Option.some.inj hd]
  exact h

/-- The text of `x`, before something that ends a value, is not the text of anything that is not
related to `x`. -/
def Decodes (stop : Char → Bool) (e : α → Text) (R : α → α → Prop) (x : α) : Prop :=
  ∀ y rest rest', Stops stop rest → Stops stop rest' → e x ++ rest = e y ++ rest' →
    R x y ∧ rest = rest'

/-- No value begins with a character that ends one. -/
def Begins (stop : Char → Bool) (e : α → Text) : Prop := ∀ x, ∃ c rest, e x = c :: rest ∧ stop c = false

/-! ## Words over their own characters -/

/-- A text of characters that end no value is over where the first other one stands. -/
theorem word_inj {w w' rest rest' : Text} (hw : ∀ c ∈ w, stop c = false)
    (hw' : ∀ c ∈ w', stop c = false) (hrest : Stops stop rest) (hrest' : Stops stop rest')
    (h : w ++ rest = w' ++ rest') : w = w' ∧ rest = rest' := by
  have hsplit : ∀ {w rest : Text}, (∀ c ∈ w, stop c = false) → Stops stop rest →
      (w ++ rest).takeWhile (fun c => !stop c) = w := by
    intro w rest hw hrest
    rw [List.takeWhile_append_of_pos (fun c hc => by simp [hw c hc])]
    cases rest with
    | nil => simp
    | cons c rest => simp [hrest c rfl]
  have hword : w = w' := by
    rw [← hsplit hw hrest, h, hsplit hw' hrest']
  subst hword
  exact ⟨rfl, List.append_cancel_left h⟩

/-! ## Lists between brackets -/

section Lists

variable {sep close : Char} {xs ys : List α} {rest rest' : Text}

/-- What stands behind the first value of a list. -/
def tailText (sep : Char) (e : α → Text) (xs : List α) : Text := xs.flatMap fun x => sep :: e x

theorem intercalate_eq (sep : Char) (e : α → Text) (x : α) (xs : List α) :
    List.intercalate [sep] ((x :: xs).map e) = e x ++ tailText sep e xs := by
  induction xs generalizing x with
  | nil => simp [tailText]
  | cons y ys ih =>
      have htail := ih y
      rw [List.map_cons] at htail
      rw [List.map_cons, List.map_cons, List.intercalate_cons_cons, htail]
      simp [tailText]

theorem stops_tailText (hsep : stop sep = true) (hclose : stop close = true) (xs : List α) :
    Stops stop (tailText sep e xs ++ close :: rest) := by
  cases xs with
  | nil => exact stops_cons hclose
  | cons x xs => exact stops_cons hsep

theorem tail_inj (hsep : stop sep = true) (hclose : stop close = true) (hne : sep ≠ close)
    (hxs : ∀ x ∈ xs, Decodes stop e R x)
    (h : tailText sep e xs ++ close :: rest = tailText sep e ys ++ close :: rest') :
    List.Forall₂ R xs ys ∧ rest = rest' := by
  induction xs generalizing ys with
  | nil =>
      cases ys with
      | nil => exact ⟨.nil, (List.cons.inj h).2⟩
      | cons y ys => exact absurd (List.cons.inj h).1.symm hne
  | cons x xs ih =>
      cases ys with
      | nil => exact absurd (List.cons.inj h).1 hne
      | cons y ys =>
          rcases List.forall_mem_cons.1 hxs with ⟨hx, hrest⟩
          have htexts : e x ++ (tailText sep e xs ++ close :: rest) =
              e y ++ (tailText sep e ys ++ close :: rest') := by
            simpa [tailText] using h
          rcases hx y _ _ (stops_tailText hsep hclose xs) (stops_tailText hsep hclose ys) htexts with
            ⟨hhead, htail⟩
          rcases ih hrest htail with ⟨hall, hequal⟩
          exact ⟨.cons hhead hall, hequal⟩

/-- Lists of values that decode are told apart up to their closing bracket. -/
theorem decodes_separated (hsep : stop sep = true) (hclose : stop close = true) (hne : sep ≠ close)
    (hbegins : Begins stop e) (hxs : ∀ x ∈ xs, Decodes stop e R x)
    (h : List.intercalate [sep] (xs.map e) ++ close :: rest =
      List.intercalate [sep] (ys.map e) ++ close :: rest') :
    List.Forall₂ R xs ys ∧ rest = rest' := by
  -- an empty list closes at once, and no value begins with the closing bracket
  have hopen : ∀ {y : α} {ys : List α} {s t : Text},
      close :: s ≠ List.intercalate [sep] ((y :: ys).map e) ++ t := by
    intro y ys s t heq
    rcases hbegins y with ⟨c, more, htext, hc⟩
    rw [intercalate_eq, htext] at heq
    rw [← (List.cons.inj heq).1, hclose] at hc
    exact Bool.noConfusion hc
  cases xs with
  | nil =>
      cases ys with
      | nil => exact ⟨.nil, (List.cons.inj h).2⟩
      | cons y ys => exact absurd h hopen
  | cons x xs =>
      cases ys with
      | nil => exact absurd h.symm hopen
      | cons y ys =>
          rcases List.forall_mem_cons.1 hxs with ⟨hx, hrest⟩
          rw [intercalate_eq, intercalate_eq, List.append_assoc, List.append_assoc] at h
          rcases hx y _ _ (stops_tailText hsep hclose xs) (stops_tailText hsep hclose ys) h with
            ⟨hhead, htail⟩
          rcases tail_inj hsep hclose hne hrest htail with ⟨hall, hequal⟩
          exact ⟨.cons hhead hall, hequal⟩

end Lists

/-! ## Strings in quotes -/

/-- The inside of a string in quotes: a quote or a backslash stands only behind a backslash. -/
inductive Escaped : Text → Prop
  | nil : Escaped []
  | plain {c : Char} {s : Text} (hquote : c ≠ '"') (hslash : c ≠ '\\') (h : Escaped s) :
      Escaped (c :: s)
  | escape {c : Char} {s : Text} (h : Escaped s) : Escaped ('\\' :: c :: s)

theorem Escaped.append {s t : Text} (hs : Escaped s) (ht : Escaped t) : Escaped (s ++ t) := by
  induction hs with
  | nil => exact ht
  | plain hquote hslash _ ih => exact .plain hquote hslash ih
  | escape _ ih => exact .escape ih

/-- The closing quote is the first one that is not escaped. -/
theorem quoted_inj {s t rest rest' : Text} (hs : Escaped s) (ht : Escaped t)
    (h : s ++ '"' :: rest = t ++ '"' :: rest') : s = t ∧ rest = rest' := by
  induction hs generalizing t with
  | nil =>
      cases ht with
      | nil => exact ⟨rfl, (List.cons.inj h).2⟩
      | plain hquote _ _ => exact absurd (List.cons.inj h).1.symm hquote
      | escape _ => exact absurd (List.cons.inj h).1 (by decide)
  | @plain c s hquote hslash _ ih =>
      cases ht with
      | nil => exact absurd (List.cons.inj h).1 hquote
      | plain _ _ ht =>
          rcases List.cons.inj h with ⟨rfl, htail⟩
          rcases ih ht htail with ⟨rfl, hrest⟩
          exact ⟨rfl, hrest⟩
      | escape _ => exact absurd (List.cons.inj h).1 hslash
  | escape _ ih =>
      cases ht with
      | nil => exact absurd (List.cons.inj h).1 (by decide)
      | plain _ hslash _ => exact absurd (List.cons.inj h).1.symm hslash
      | escape ht =>
          rcases List.cons.inj (List.cons.inj h).2 with ⟨rfl, htail⟩
          rcases ih ht htail with ⟨rfl, hrest⟩
          exact ⟨rfl, hrest⟩

end Separated
end Strings
end PaymentRail
