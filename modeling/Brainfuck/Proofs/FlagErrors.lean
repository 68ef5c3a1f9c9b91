import Brainfuck.Proofs.Enlargement
import Brainfuck.Proofs.Refusal

/-!
# Errors under more optimizations

Two compilations in lockstep meet the same brackets with the same loops open, so a bracket without a
partner is refused by both or by neither. Only a loop that is too long without an optimization may
fit with it. Main statement: more optimizations accept more, report a bracket without a partner in
the same words, and find a loop too long only where fewer find that one or an earlier one too long
(`errors_of_within`). A loop of writes is too long under any of them (`compile_long_loop`).
-/
namespace Brainfuck

open Instruction

namespace Assembly

variable {F G : Flags} {a b : Assembly} {gs : List Glyph}

/-- The same brackets are open, so a bracket that closes nothing does so for both. -/
theorem Lockstep.closeLoop_unmatched (lock : Lockstep F a b) {p place : Place}
    (refused : a.closeLoop F p = .error (.unmatchedClosing place)) :
    b.closeLoop G p = .error (.unmatchedClosing place) := by
  rcases closeLoop_error_cases refused with ⟨noneOpen, same⟩ | ⟨_, _, _, _, _, other⟩
  · cases same
    have alike := lock.pending
    rw [noneOpen] at alike
    obtain ⟨body, pending⟩ := b
    cases alike
    rfl
  · cases other

/-- A loop that is too long in the second code is too long in the first. -/
theorem Lockstep.closeLoop_long (within : F.Within G) (written : Written F gs a)
    (lock : Lockstep F a b) {p place : Place} {distance : Nat}
    (refused : b.closeLoop G p = .error (.loopTooLong place distance)) :
    ∃ distance', a.closeLoop F p = .error (.loopTooLong place distance') := by
  obtain rfl : place = p := place_of_closeLoop_error refused
  cases closed : a.closeLoop F place with
  | ok a' =>
    obtain ⟨b', closed', _⟩ := lock.closeLoop within written closed
    cases closed'.symm.trans refused
  | error e =>
    rcases closeLoop_error_cases closed with ⟨_, rfl⟩ | ⟨_, _, _, _, _, rfl⟩
    · cases (lock.closeLoop_unmatched closed).symm.trans refused
    · exact ⟨_, rfl⟩

theorem Lockstep.feedGlyphs_unmatched (within : F.Within G) (written : Written F gs a)
    (lock : Lockstep F a b) {more : List (Glyph × Place)} {place : Place}
    (failed : Assembly.feedGlyphs F more a = .error (.unmatchedClosing place)) :
    Assembly.feedGlyphs G more b = .error (.unmatchedClosing place) := by
  obtain ⟨read, p, rest, a', rfl, fed, refused⟩ := exists_refused failed
  obtain ⟨b', fed', lock'⟩ := lock.feedGlyphs within written fed
  exact feedGlyphs_of_refused fed' (lock'.closeLoop_unmatched refused) rest

/-- Where the second code meets a loop that is too long, the first has met one: the same or one that
was closed before. -/
theorem Lockstep.feedGlyphs_long (within : F.Within G) (written : Written F gs a)
    (lock : Lockstep F a b) {more : List (Glyph × Place)} {place : Place} {distance : Nat}
    (failed : Assembly.feedGlyphs G more b = .error (.loopTooLong place distance)) :
    ∃ (j k : Nat) (place' : Place) (distance' : Nat),
      Assembly.feedGlyphs F more a = .error (.loopTooLong place' distance') ∧ k ≤ j ∧
      more[j]? = some (Glyph.closing, place) ∧ more[k]? = some (Glyph.closing, place') := by
  obtain ⟨read, p, rest, b', rfl, fed', refused'⟩ := exists_refused failed
  obtain rfl : place = p := place_of_closeLoop_error refused'
  have last : (read ++ (Glyph.closing, place) :: rest)[read.length]? = some (.closing, place) := by
    simp
  cases fed : Assembly.feedGlyphs F read a with
  | ok a' =>
    obtain ⟨b'', fed'', lock'⟩ := lock.feedGlyphs within written fed
    cases fed'.symm.trans fed''
    obtain ⟨distance', refused⟩ := lock'.closeLoop_long within (written.feedGlyphs fed) refused'
    have failed' := feedGlyphs_of_refused fed refused rest
    exact ⟨_, _, place, distance', failed', Nat.le_refl _, last, last⟩
  | error e =>
    obtain ⟨earlier, q, later, a', rfl, fedEarlier, refused⟩ := exists_refused fed
    rcases closeLoop_error_cases refused with ⟨_, rfl⟩ | ⟨_, _, _, _, _, rfl⟩
    · cases (lock.feedGlyphs_unmatched within written fed).symm.trans fed'
    · have before : earlier.length ≤ (earlier ++ (Glyph.closing, q) :: later).length := by
        rw [List.length_append]
        exact Nat.le_add_right _ _
      refine ⟨_, earlier.length, q, _, feedGlyphs_append_error fed _, before, last, ?_⟩
      rw [List.append_assoc]
      simp

end Assembly

/-- A closing bracket of a source, by its rank among the glyphs and by its place. -/
structure ClosesAt (source : String) (rank : Nat) (place : Place) : Prop where
  glyph : (glyphsOf source)[rank]? = some .closing
  place : StandsAt source rank place

theorem closesAt_of_placedGlyphs {source : String} {rank : Nat} {place : Place}
    (here : (placedGlyphs source.toList .start)[rank]? = some (.closing, place)) :
    ClosesAt source rank place where
  glyph := by
    rw [glyphsOf, ← map_fst_placedGlyphs source.toList .start, List.getElem?_map, here]
    rfl
  place := standsAt_iff.mpr ⟨.closing, here⟩

section

variable {F G : Flags} {source : String} {place : Place}

theorem compile_unmatchedClosing_of_within (within : F.Within G)
    (failed : compile F source = .error (.unmatchedClosing place)) :
    compile G source = .error (.unmatchedClosing place) := by
  rcases compile_refused_or_finished F source with ⟨e, fed, refused, _⟩ | ⟨a, _, ended⟩
  · cases refused.symm.trans failed
    have fed' := (Assembly.lockstep_empty F).feedGlyphs_unmatched within
      (Assembly.written_empty F) fed
    rw [compile, Assembly.feedText_eq_feedGlyphs, fed']
  · obtain ⟨_, _, _, _, other⟩ := Assembly.finish_eq_error_iff.mp (ended.symm.trans failed)
    cases other

/-- What compiles up to the end under both flags leaves the same bracket open. -/
theorem compile_unmatchedOpening_of_within (within : F.Within G)
    (failed : compile F source = .error (.unmatchedOpening place)) :
    compile G source = .error (.unmatchedOpening place) := by
  rcases compile_refused_or_finished F source with ⟨e, _, refused, other⟩ | ⟨a, fed, ended⟩
  · cases refused.symm.trans failed
    rcases other with ⟨_, unmatched⟩ | ⟨_, _, long⟩
    · cases unmatched
    · cases long
  · obtain ⟨b, fed', lock⟩ :=
      (Assembly.lockstep_empty F).feedGlyphs within (Assembly.written_empty F) fed
    have ended' : compile G source = b.finish := by
      rw [compile, Assembly.feedText_eq_feedGlyphs, fed']
    obtain ⟨_, _, _, opened, same⟩ := Assembly.finish_eq_error_iff.mp (ended.symm.trans failed)
    cases same
    have alike := lock.pending
    rw [opened] at alike
    generalize opened' : b.pending = entries at alike
    cases alike with
    | cons _ _ _ _ =>
      rw [ended']
      exact Assembly.finish_eq_error_iff.mpr ⟨_, _, _, opened', rfl⟩

theorem compile_loopTooLong_of_within (within : F.Within G) {distance : Nat}
    (failed : compile G source = .error (.loopTooLong place distance)) :
    ∃ j k place' distance', compile F source = .error (.loopTooLong place' distance') ∧ k ≤ j ∧
      ClosesAt source j place ∧ ClosesAt source k place' := by
  rcases compile_refused_or_finished G source with ⟨e, fed', refused, _⟩ | ⟨b, _, ended⟩
  · cases refused.symm.trans failed
    obtain ⟨j, k, place', distance', fed, before, closes, closes'⟩ :=
      (Assembly.lockstep_empty F).feedGlyphs_long within (Assembly.written_empty F) fed'
    refine ⟨j, k, place', distance', ?_, before, ?_, ?_⟩
    · rw [compile, Assembly.feedText_eq_feedGlyphs, fed]
    · exact closesAt_of_placedGlyphs closes
    · exact closesAt_of_placedGlyphs closes'
  · obtain ⟨_, _, _, _, other⟩ := Assembly.finish_eq_error_iff.mp (ended.symm.trans failed)
    cases other

end

section Long

variable (flags : Flags)

namespace Assembly

/-- Writes are never folded. -/
theorem not_folded_write : (flags.coalesceRuns && (ofGlyph .write).isRepeatable) = false :=
  Bool.and_false _

variable {g : Glyph} (notOpening : g ≠ .opening) (notClosing : g ≠ .closing)
include notOpening notClosing

/-- A glyph that is no bracket is compiled and the next character is read. -/
theorem feedText_emit (cs : List Char) (place : Place) (a : Assembly) :
    feedText flags (g.char :: cs) place a =
      feedText flags cs (place.after g.char) (a.emit flags (ofGlyph g)) := by
  cases g with
  | opening => exact absurd rfl notOpening
  | closing => exact absurd rfl notClosing
  | _ => rfl

/-- Glyphs that are not folded are each an instruction of its own. -/
theorem feedText_single (alone : (flags.coalesceRuns && (ofGlyph g).isRepeatable) = false)
    (n : Nat) (cs : List Char) (place : Place) (a : Assembly) :
    feedText flags (List.replicate n g.char ++ cs) place a =
      feedText flags cs (place.past (List.replicate n g.char))
        ⟨a.body ++ Array.replicate n (ofGlyph g), a.pending⟩ := by
  induction n generalizing place a with
  | zero => simp
  | succ n ih =>
    rw [List.replicate_succ, List.cons_append, feedText_emit flags notOpening notClosing,
      emit_push a alone, ih]
    simp [Array.replicate_succ', ← Array.append_assoc]

/-- A loop of so many glyphs that are not folded is too long, unless it may be dropped. -/
theorem feedText_long_loop (alone : (flags.coalesceRuns && (ofGlyph g).isRepeatable) = false)
    {a : Assembly} (kept : (flags.stripCommentBlock && a.body.size == 0) = false) {n : Nat}
    (long : maxOperand ≤ n) (cs : List Char) (place : Place) :
    feedText flags ('[' :: (List.replicate n g.char ++ ']' :: cs)) place a =
      .error (.loopTooLong ((place.after '[').past (List.replicate n g.char)) (n + 1)) := by
  rw [feedText_opening, feedText_single flags notOpening notClosing alone]
  generalize ended : (place.after '[').past (List.replicate n g.char) = last
  generalize grown : Assembly.mk _ _ = b
  have top : b.pending = (a.body.size, place) :: a.pending := by
    rw [← grown]
    rfl
  have distance : b.body.size - a.body.size = n + 1 := by
    rw [← grown]
    simp only [Assembly.openLoop, Array.size_append, Array.size_push, Array.size_replicate]
    omega
  have refused : b.closeLoop flags last =
      .error (.loopTooLong last (b.body.size - a.body.size)) :=
    closeLoop_of_long top kept (by omega)
  rw [feedText_closing, refused, distance]

end Assembly

def writesOpened (n : Nat) : List Char :=
  '.' :: '[' :: List.replicate n '.'

/-- No optimization shortens a loop of writes. -/
theorem compile_long_loop {n : Nat} (long : maxOperand ≤ n) :
    compile flags (String.ofList (writesOpened n ++ [']'])) =
      .error (.loopTooLong (.behind (writesOpened n)) (n + 1)) := by
  have kept : (flags.stripCommentBlock && (#[ofGlyph .write].size == 0)) = false :=
    Bool.and_false _
  have first : Assembly.emit flags (ofGlyph .write) .empty = ⟨#[ofGlyph .write], []⟩ :=
    Assembly.emit_push .empty (Assembly.not_folded_write flags)
  have refused := Assembly.feedText_long_loop flags (g := .write) nofun nofun
    (Assembly.not_folded_write flags) (a := ⟨#[ofGlyph .write], []⟩) kept long []
    (Place.start.after '.')
  rw [← first] at refused
  have behind : ((Place.start.after '.').after '[').past (List.replicate n '.') =
      .behind (writesOpened n) := Place.past_start (writesOpened n)
  have whole : Assembly.feedText flags (writesOpened n ++ [']']) .start .empty =
      .error (.loopTooLong (.behind (writesOpened n)) (n + 1)) := by
    rw [← behind]
    exact refused
  rw [compile, String.toList_ofList, whole]

end Long

section Runs

namespace Assembly

variable {flags : Flags} {g : Glyph} {n : Nat}
  (folded : (flags.coalesceRuns && (ofGlyph g).isRepeatable) = true)
include folded

/-- A repeatable glyph counts an instruction up that does the same. -/
theorem emit_counted {i : Instruction} (same : i.code = (ofGlyph g).code)
    (fits : i.operand + 1 ≤ maxOperand) (body : Array Instruction) (pending : List (Nat × Place)) :
    emit flags (ofGlyph g) ⟨body.push i, pending⟩ =
      ⟨body.push (i.withOperand (i.operand + 1) fits), pending⟩ := by
  have counted : bumped? (body.push i).back? (ofGlyph g) =
      some (i.withOperand (i.operand + 1) fits) := by
    simp only [Array.back?_push, bumped?, fits, same, dif_pos, if_true]
  have last (j : Instruction) : (body.push i).setIfInBounds body.size j = body.push j := by
    apply Array.ext'
    simp
  simp only [emit, folded, if_true, counted, Array.size_push, Nat.add_sub_cancel, last]

/-- A run of a repeatable glyph counts an instruction up as often. -/
theorem feedText_folded (notOpening : g ≠ .opening) (notClosing : g ≠ .closing) {i : Instruction}
    (same : i.code = (ofGlyph g).code) (fits : i.operand + n ≤ maxOperand) (cs : List Char)
    (place : Place) (body : Array Instruction) (pending : List (Nat × Place)) :
    feedText flags (List.replicate n g.char ++ cs) place ⟨body.push i, pending⟩ =
      feedText flags cs (place.past (List.replicate n g.char))
        ⟨body.push (i.withOperand (i.operand + n) fits), pending⟩ := by
  induction n generalizing i place with
  | zero => rfl
  | succ n ih =>
    have once : i.operand + 1 ≤ maxOperand := by omega
    have rest : i.operand + 1 + n ≤ maxOperand := by omega
    have total : (i.withOperand (i.operand + 1) once).withOperand (i.operand + 1 + n) rest =
        i.withOperand (i.operand + (n + 1)) fits :=
      Instruction.ext rfl (Nat.add_right_comm i.operand 1 n)
    rw [List.replicate_succ, List.cons_append, feedText_emit flags notOpening notClosing,
      emit_counted folded same once, ih (i := i.withOperand (i.operand + 1) once) same rest]
    exact congrArg (fun j => feedText flags cs _ ⟨body.push j, pending⟩) total

end Assembly

end Runs

/-- Compared with fewer optimizations, more accept every source that these accept. A bracket without
a partner that is reported under fewer is reported under more, at the same place. A loop that is too
long under more is too long under fewer, unless these stop at an earlier loop that is too long. -/
theorem errors_of_within {F G : Flags} (within : F.Within G) (source : String) :
    ((∃ code, compile F source = .ok code) → ∃ code, compile G source = .ok code) ∧
    (∀ place, compile F source = .error (.unmatchedClosing place) →
      compile G source = .error (.unmatchedClosing place)) ∧
    (∀ place, compile F source = .error (.unmatchedOpening place) →
      compile G source = .error (.unmatchedOpening place)) ∧
    ∀ place distance, compile G source = .error (.loopTooLong place distance) →
      ∃ j k place' distance', compile F source = .error (.loopTooLong place' distance') ∧ k ≤ j ∧
        ClosesAt source j place ∧ ClosesAt source k place' := by
  refine ⟨?_, ?_, ?_, ?_⟩
  · rintro ⟨code, compiled⟩
    exact compile_of_within within compiled
  · intro place failed
    exact compile_unmatchedClosing_of_within within failed
  · intro place failed
    exact compile_unmatchedOpening_of_within within failed
  · intro place distance failed
    exact compile_loopTooLong_of_within within failed

/-- Each of the four outcomes, without optimizations and with all of them. -/
theorem errors_of_within_in_each_case :
    let long := String.ofList (writesOpened maxOperand ++ [']'])
    Flags.plain.Within .all ∧
    ((compile .plain "[,]++").isOk = true ∧ ∃ code, compile .all "[,]++" = .ok code) ∧
    (compile .plain "++\n[-]]" = .error (.unmatchedClosing ⟨2, 4, 6⟩) ∧
      compile .all "++\n[-]]" = .error (.unmatchedClosing ⟨2, 4, 6⟩)) ∧
    (compile .plain "[,]++[" = .error (.unmatchedOpening ⟨1, 6, 5⟩) ∧
      compile .all "[,]++[" = .error (.unmatchedOpening ⟨1, 6, 5⟩)) ∧
    compile .all long =
      .error (.loopTooLong (.behind (writesOpened maxOperand)) (maxOperand + 1)) ∧
    ∃ j k place distance, compile .plain long = .error (.loopTooLong place distance) ∧ k ≤ j ∧
      ClosesAt long j (.behind (writesOpened maxOperand)) ∧ ClosesAt long k place := by
  intro long
  have within : Flags.plain.Within .all := Flags.plain_within .all
  have accepted : compile .plain "[,]++" = .ok _ := rfl
  have closing : compile .plain "++\n[-]]" = .error (.unmatchedClosing ⟨2, 4, 6⟩) := rfl
  have opening : compile .plain "[,]++[" = .error (.unmatchedOpening ⟨1, 6, 5⟩) := rfl
  have overlong := compile_long_loop .all (Nat.le_refl maxOperand)
  refine ⟨within, ⟨rfl, ?_⟩, ⟨closing, ?_⟩, ⟨opening, ?_⟩, overlong, ?_⟩
  · exact (errors_of_within within _).1 ⟨_, accepted⟩
  · exact (errors_of_within within _).2.1 _ closing
  · exact (errors_of_within within _).2.2.1 _ opening
  · exact (errors_of_within within _).2.2.2 _ _ overlong

end Brainfuck
