import Brainfuck.Proofs.Respelling
import Brainfuck.Proofs.Tiling

/-!
# A token dump is the same program

Each token is dumped with blanks around it (`Token.exists_dumpText`), so tokens of the same kinds
tile a dump (`exists_tiles_dumped`), and these are the ones that are read from it (`tokens_eq_iff`).
Main statement: the dump of a source reads as the same kinds of tokens, is its own dump, and
compiles to the same code (`tokenDump_same_program`).
-/
namespace Brainfuck

def Token.Kind.glyph? : Token.Kind → Option Glyph
  | .glyph g => some g
  | .comment _ => none

/-- What a dump says of tokens of some kinds, character by character. -/
def dumped (kinds : List Token.Kind) : List Char :=
  kinds.flatMap (fun kind => (Token.dumpText ⟨kind, .start⟩).toList) ++ ['\n']

theorem toList_tokenDump (source : String) :
    (tokenDump source).toList = dumped ((tokens source).map Token.kind) := by
  rw [tokenDump, String.toList_append, String.toList_join, dumped, List.flatMap_map,
    List.flatMap_map]
  rfl

theorem blank_feed : Blank ['\n'] :=
  List.forall_mem_singleton.mpr rfl

/-- A token is dumped with nothing but blanks around it. -/
theorem Token.exists_dumpText (t : Token) : ∃ front back, Blank front ∧ Blank back ∧
    t.dumpText.toList = front ++ (t.kind.chars ++ back) := by
  obtain ⟨kind, place⟩ := t
  cases kind with
  | glyph g => exact ⟨[], [], nofun, nofun, by simp [dumpText, Kind.chars]⟩
  | comment text =>
    have tabs : Blank ['\t', '\t'] :=
      List.forall_mem_cons.mpr ⟨rfl, List.forall_mem_singleton.mpr rfl⟩
    refine ⟨['\t', '\t'], ['\n'], tabs, blank_feed, ?_⟩
    simp only [dumpText, Kind.chars, String.toList_append, List.append_assoc]
    rfl

/-- Tokens of the same kinds tile a dump. -/
theorem exists_tiles_dumped (kinds : List Token.Kind) (before : List Char) :
    ∃ ts : List Token, ts.map Token.kind = kinds ∧ Tiles before ts (dumped kinds) := by
  induction kinds generalizing before with
  | nil => exact ⟨[], rfl, .done blank_feed⟩
  | cons kind kinds ih =>
    obtain ⟨front, back, blank, blank', written⟩ := Token.exists_dumpText ⟨kind, .start⟩
    obtain ⟨ts, same, tiles⟩ := ih (before ++ front ++ kind.chars ++ back)
    have whole : dumped (kind :: kinds) = front ++ (kind.chars ++ (back ++ dumped kinds)) := by
      simp [dumped, written]
    refine ⟨⟨kind, .behind (before ++ front)⟩ :: ts, by simp [same], ?_⟩
    rw [whole]
    exact .token blank rfl (tiles.prepend blank')

/-- Whether comments are apart is a matter of the kinds of tokens. -/
theorem apart_iff_kinds {ts : List Token} :
    Apart ts ↔ (ts.map Token.kind).IsChain fun k l => (∃ g, k = .glyph g) ∨ ∃ g, l = .glyph g := by
  simp only [Apart, List.isChain_map, Token.isGlyph_iff]

/-- The glyphs of a source are those among its tokens. -/
theorem filterMap_glyph?_tokens (source : String) :
    ((tokens source).map Token.kind).filterMap Token.Kind.glyph? = glyphsOf source := by
  have placed := (Reader.ofSource source).filterMap_left
  have glyphs := congrArg (List.map Prod.fst) placed
  rw [map_fst_placedGlyphs, List.map_filterMap] at glyphs
  rw [List.filterMap_map, glyphsOf]
  refine Eq.trans ?_ glyphs
  apply List.filterMap_congr
  rintro ⟨kind, place⟩ _
  cases kind with
  | glyph g => rfl
  | comment text => rfl

/-- A dump reads as the same kinds of tokens. -/
theorem map_kind_tokens_tokenDump (source : String) :
    (tokens (tokenDump source)).map Token.kind = (tokens source).map Token.kind := by
  obtain ⟨_, proper, apart⟩ := tokens_eq_iff.mp (rfl : tokens source = _)
  obtain ⟨ts, same, tiles⟩ := exists_tiles_dumped ((tokens source).map Token.kind) []
  have all : tokens (tokenDump source) = ts := by
    apply tokens_eq_iff.mpr
    rw [toList_tokenDump]
    refine ⟨tiles, ?_, ?_⟩
    · have kinds := List.forall_mem_map.mpr proper
      rw [← same] at kinds
      exact List.forall_mem_map.mp kinds
    · rwa [apart_iff_kinds, same, ← apart_iff_kinds]
  rw [all, same]

/-- The dump of a source is a source of the same program: it reads as the same kinds of tokens, with
the same comments, it is its own dump, and under any optimizations it compiles to a code just as the
source does. -/
theorem tokenDump_same_program (source : String) :
    (tokens (tokenDump source)).map Token.kind = (tokens source).map Token.kind ∧
    tokenDump (tokenDump source) = tokenDump source ∧
    ∀ flags code,
      compile flags (tokenDump source) = .ok code ↔ compile flags source = .ok code := by
  have same := map_kind_tokens_tokenDump source
  refine ⟨same, ?_, ?_⟩
  · apply String.toList_inj.mp
    rw [toList_tokenDump, toList_tokenDump, same]
  · intro flags code
    have glyphs : glyphsOf (tokenDump source) = glyphsOf source := by
      rw [← filterMap_glyph?_tokens, same, filterMap_glyph?_tokens]
    rw [compile_eq_ok_iff, compile_eq_ok_iff, glyphs]

end Brainfuck
