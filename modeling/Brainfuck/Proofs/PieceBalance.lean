import Brainfuck.Literal.Basic
import Brainfuck.Proofs.Enlargement
import Mathlib.Data.List.Forall2

/-!
# Balance of pieces

The brackets of a program in pieces are checked twice by different means: piece by piece before the
pieces are joined, and while the joined source is compiled. Both keep the brackets that are open,
the one by their pieces and characters, the other by their places, and these go in step
(`Balance.Agrees`). Main statement: where no loop is too long, a program in pieces is balanced if
and only if its source compiles, and otherwise both blame the same bracket
(`balance_agrees_with_compile`).
-/
namespace Brainfuck

def charactersBefore : List String → Nat → Nat
  | _, 0 | [], _ => 0
  | p :: ps, piece + 1 => p.length + charactersBefore ps piece

@[simp] theorem charactersBefore_zero (ps : List String) : charactersBefore ps 0 = 0 := by
  cases ps with
  | nil => rfl
  | cons => rfl

/-- A character of a piece is the one at a place of the joined text. -/
structure PiecePlace.Locates (ps : List String) (spot : PiecePlace) (place : Place) : Prop where
  piece : ∃ p, ps[spot.piece]? = some p ∧ spot.character ≤ p.length
  fromOne : 1 ≤ spot.character
  offset : place.offset = charactersBefore ps spot.piece + spot.character - 1

def BalanceError.spot : BalanceError → PiecePlace
  | unmatchedClosing spot | unmatchedOpening spot => spot

theorem BalanceError.message_eq_closing_iff {e : BalanceError} :
    e.message = s!"Can't find `[` for the `]` at character {e.spot.character}" ↔
      ∃ spot, e = .unmatchedClosing spot := by
  constructor
  · intro told
    cases e with
    | unmatchedClosing spot => exact ⟨spot, rfl⟩
    | unmatchedOpening spot =>
      have texts := (String.append_left_inj _).mp told
      exact absurd texts (by decide)
  · rintro ⟨spot, rfl⟩
    rfl

theorem BalanceError.message_eq_opening_iff {e : BalanceError} :
    e.message = s!"Can't find `]` for the `[` at character {e.spot.character}" ↔
      ∃ spot, e = .unmatchedOpening spot := by
  constructor
  · intro told
    cases e with
    | unmatchedClosing spot =>
      have texts := (String.append_left_inj _).mp told
      exact absurd texts (by decide)
    | unmatchedOpening spot => exact ⟨spot, rfl⟩
  · rintro ⟨spot, rfl⟩
    rfl

namespace Assembly

/-- A character that is no bracket leaves the open loops as they are. -/
theorem feedText_other (flags : Flags) {c : Char} (notOpening : c ≠ '[') (notClosing : c ≠ ']')
    (cs : List Char) (place : Place) (a : Assembly) :
    ∃ b, b.pending = a.pending ∧
      feedText flags (c :: cs) place a = feedText flags cs (place.after c) b := by
  cases glyph : Glyph.ofChar? c with
  | none => exact ⟨a, rfl, by simp only [feedText, glyph]⟩
  | some g =>
    rw [Glyph.ofChar?_eq_some_iff] at glyph
    subst glyph
    cases g with
    | opening => exact absurd rfl notOpening
    | closing => exact absurd rfl notClosing
    | _ => exact ⟨_, (size_emit flags _ a).1, rfl⟩

end Assembly

namespace Balance

/-- The brackets that both checks hold open are the same. -/
def OpenAlike (ps : List String) (opened : List PiecePlace) (pending : List (Nat × Place)) : Prop :=
  List.Forall₂ (fun spot entry => spot.Locates ps entry.2) opened pending

/-- What the two checks come to with a part of a text: both hold the same brackets open, both blame
the same closing bracket, or a loop is too long. -/
inductive Agrees (ps : List String) :
    Except BalanceError (List PiecePlace) → Except CompileError Assembly → Prop
  | going {opened : List PiecePlace} {a : Assembly} : OpenAlike ps opened a.pending →
      Agrees ps (.ok opened) (.ok a)
  | unopened {spot : PiecePlace} {place : Place} : spot.Locates ps place →
      Agrees ps (.error (.unmatchedClosing spot)) (.error (.unmatchedClosing place))
  | tooLong (result : Except BalanceError (List PiecePlace)) (place : Place) (distance : Nat) :
      Agrees ps result (.error (.loopTooLong place distance))

theorem piece_other {c : Char} (notOpening : c ≠ '[') (notClosing : c ≠ ']') (index : Nat)
    (cs : List Char) (character : Nat) (opened : List PiecePlace) :
    piece index (c :: cs) character opened = piece index cs (character + 1) opened := by
  cases opened with
  | nil => simp [piece, notClosing]
  | cons spot opened => simp [piece, notClosing]

variable {ps : List String} {opened : List PiecePlace} {a : Assembly}

/-- A closing bracket closes the same bracket for both, or both blame it, or its loop is too
long. -/
theorem agrees_closeLoop (place : Place) (same : OpenAlike ps opened a.pending) :
    (opened = [] ∧ a.closeLoop .plain place = .error (.unmatchedClosing place)) ∨
    (∃ spot rest b, opened = spot :: rest ∧ a.closeLoop .plain place = .ok b ∧
      OpenAlike ps rest b.pending) ∨
    ∃ distance, a.closeLoop .plain place = .error (.loopTooLong place distance) := by
  obtain ⟨body, pending⟩ := a
  cases same with
  | nil => exact .inl ⟨rfl, rfl⟩
  | @cons spot entry rest pending _ below =>
    obtain ⟨start, opener⟩ := entry
    right
    by_cases fits : body.size - start ≤ maxOperand
    · left
      refine ⟨spot, rest, ⟨(body.setIfInBounds start (.make .jumpForward _ fits)).push
        (.make .jumpBackward _ fits), pending⟩, rfl, ?_, below⟩
      simp [Assembly.closeLoop, Flags.plain, fits]
    · right
      exact ⟨body.size - start, by simp [Assembly.closeLoop, Flags.plain, fits]⟩

variable {place : Place}

/-- The two checks go in step through the rest of a piece. -/
theorem agrees_piece {p : String} {index : Nat} (here : ps[index]? = some p) {cs : List Char}
    {character : Nat} (reach : character + cs.length = p.length + 1) (fromOne : 1 ≤ character)
    (offset : place.offset + 1 = charactersBefore ps index + character)
    (same : OpenAlike ps opened a.pending) :
    Agrees ps (piece index cs character opened) (Assembly.feedText .plain cs place a) := by
  induction cs generalizing character place opened a with
  | nil => exact .going same
  | cons c cs ih =>
    rw [List.length_cons] at reach
    have located : PiecePlace.Locates ps ⟨index, character⟩ place := by
      refine ⟨⟨p, here, ?_⟩, fromOne, ?_⟩
      · dsimp only
        omega
      · dsimp only
        omega
    have reach' : character + 1 + cs.length = p.length + 1 := by omega
    have offset' : (place.after c).offset + 1 = charactersBefore ps index + (character + 1) := by
      rw [Place.after_offset]
      omega
    by_cases opens : c = '['
    · subst opens
      rw [Assembly.feedText_opening]
      exact ih reach' (by omega) offset' (.cons located same)
    · by_cases closes : c = ']'
      · subst closes
        rw [Assembly.feedText_closing]
        rcases agrees_closeLoop place same with
          ⟨rfl, refused⟩ | ⟨spot, rest, b, rfl, closed, below⟩ | ⟨distance, refused⟩
        · rw [refused]
          exact .unopened located
        · rw [closed]
          exact ih reach' (by omega) offset' below
        · rw [refused]
          exact .tooLong _ place distance
      · obtain ⟨b, pending, fed⟩ := Assembly.feedText_other .plain opens closes cs place a
        rw [piece_other opens closes, fed]
        refine ih reach' (by omega) offset' ?_
        rw [OpenAlike, pending]
        exact same

theorem charactersBefore_length (done : List String) (p : String) (rest : List String) :
    charactersBefore (done ++ p :: rest) (done.length + 1) =
      charactersBefore (done ++ p :: rest) done.length + p.length := by
  induction done with
  | nil =>
    simp only [List.nil_append, List.length_nil, charactersBefore, charactersBefore_zero]
    omega
  | cons q done ih =>
    simp only [List.cons_append, List.length_cons, charactersBefore, ih]
    omega

theorem past_offset (place : Place) (cs : List Char) :
    (place.past cs).offset = place.offset + cs.length := by
  induction cs generalizing place with
  | nil => rfl
  | cons c cs ih =>
    rw [Place.past_cons, ih, Place.after_offset, List.length_cons]
    omega

/-- The two checks go in step through the pieces that are left. -/
theorem agrees_pieces {done rest : List String} (whole : ps = done ++ rest)
    (offset : place.offset = charactersBefore ps done.length)
    (same : OpenAlike ps opened a.pending) :
    Agrees ps (pieces rest done.length opened)
      (Assembly.feedText .plain (String.join rest).toList place a) := by
  induction rest generalizing done place opened a with
  | nil => exact .going same
  | cons p rest ih =>
    have here : ps[done.length]? = some p := by simp [whole]
    have reach : 1 + p.toList.length = p.length + 1 := by
      rw [String.length_toList, Nat.add_comm]
    have first : Agrees ps (piece done.length p.toList 1 opened)
        (Assembly.feedText .plain p.toList place a) :=
      agrees_piece here reach (Nat.le_refl 1) (by rw [offset]) same
    rw [String.join_cons, String.toList_append, Assembly.feedText_append, pieces]
    generalize piece done.length p.toList 1 opened = checked at first ⊢
    generalize Assembly.feedText .plain p.toList place a = fed at first ⊢
    cases first with
    | going same' =>
      have whole' : ps = (done ++ [p]) ++ rest := by
        rw [whole, List.append_assoc]
        rfl
      have onward : (place.past p.toList).offset = charactersBefore ps (done ++ [p]).length := by
        rw [past_offset, offset, String.length_toList, List.length_append, List.length_singleton,
          whole, charactersBefore_length]
      have further := ih whole' onward same'
      rw [List.length_append, List.length_singleton] at further
      exact further
    | unopened located => exact .unopened located
    | tooLong _ closing distance => exact .tooLong _ closing distance

end Balance

/-- The brackets of a program in pieces, whose loops are not too long, match if and only if its
source compiles. Otherwise both miss the same kind of bracket, and it is the same bracket that is to
blame. -/
theorem balance_agrees_with_compile (ps : List String)
    (short : ∀ place distance,
      compile .plain (String.join ps) ≠ .error (.loopTooLong place distance)) :
    (Balance.check ps = .ok () ↔ ∃ code, compile .plain (String.join ps) = .ok code) ∧
    ((∃ e, Balance.check ps = .error e ∧
        e.message = s!"Can't find `[` for the `]` at character {e.spot.character}") ↔
      ∃ place, compile .plain (String.join ps) = .error (.unmatchedClosing place)) ∧
    ((∃ e, Balance.check ps = .error e ∧
        e.message = s!"Can't find `]` for the `[` at character {e.spot.character}") ↔
      ∃ place, compile .plain (String.join ps) = .error (.unmatchedOpening place)) ∧
    ∀ e e', Balance.check ps = .error e → compile .plain (String.join ps) = .error e' →
      e.spot.Locates ps e'.place := by
  have both : Balance.Agrees ps (Balance.pieces ps 0 [])
      (Assembly.feedText .plain (String.join ps).toList .start .empty) :=
    Balance.agrees_pieces (show ps = [] ++ ps from rfl) (charactersBefore_zero ps).symm .nil
  simp only [BalanceError.message_eq_closing_iff, BalanceError.message_eq_opening_iff]
  simp only [Balance.check, compile] at short ⊢
  generalize Balance.pieces ps 0 [] = checked at both ⊢
  generalize Assembly.feedText .plain (String.join ps).toList .start .empty = fed at both short ⊢
  cases both with
  | unopened located =>
    simpa [BalanceError.spot, CompileError.place] using located
  | tooLong _ place distance => exact absurd rfl (short place distance)
  | @going opened a same =>
    obtain ⟨body, pending⟩ := a
    cases same with
    | nil => simp [Assembly.finish]
    | cons located _ =>
      simpa [Assembly.finish, BalanceError.spot, CompileError.place] using located

theorem balance_agrees_with_compile_inner_opening :
    (∀ place distance, compile .plain (String.join ["[", "", "é\n[]["]) ≠
      .error (.loopTooLong place distance)) ∧
    Balance.check ["[", "", "é\n[]["] = .error (.unmatchedOpening ⟨2, 5⟩) ∧
    ∃ place, compile .plain (String.join ["[", "", "é\n[]["]) = .error (.unmatchedOpening place) ∧
      place.offset = 5 := by
  have refused : compile .plain (String.join ["[", "", "é\n[]["]) =
      .error (.unmatchedOpening ⟨2, 3, 5⟩) := by decide
  have short : ∀ place distance, compile .plain (String.join ["[", "", "é\n[]["]) ≠
      .error (.loopTooLong place distance) := by
    rw [refused]
    nofun
  have agree := balance_agrees_with_compile ["[", "", "é\n[]["] short
  have blamed : Balance.check ["[", "", "é\n[]["] = .error (.unmatchedOpening ⟨2, 5⟩) := by decide
  obtain ⟨place, found⟩ := agree.2.2.1.mp ⟨_, blamed, rfl⟩
  refine ⟨short, blamed, place, found, ?_⟩
  have located := agree.2.2.2 _ _ blamed found
  exact located.offset

end Brainfuck
