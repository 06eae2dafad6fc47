import TreeAccord.Config.KotlinPsi
import TreeAccord.Proofs.Compare.Simulation
import TreeAccord.Proofs.View.Padding

/-! # Noise makes no difference

A comparison cannot tell a tree from the same tree with noise put in, as long as the side that reads
the tree looks at no text. -/

namespace TreeAccord

open View

theorem simulation_padded {p : Side} (textless : p.inspectsText = false) :
    Simulation p (Padded p) where
  rule_eq h := h.alike.rule
  terminal_eq h := h.alike.terminal
  arity_eq h := h.arity_eq textless
  exposed_related h := h.exposed textless

/-- Wherever noise is put into a tree, every comparison that reads it by this side comes to the same
verdict, with the same divergence at the same path. It makes no difference which of the two trees it
is, what the other one is and how the other side reads it. -/
theorem verdict_padded {p : Side} (textless : p.inspectsText = false) {t t' : Tree}
    (h : Padded p t t') (s : Comparison) (other : Tree) :
    (s.concordance.candidate = p → s.verdict t other = s.verdict t' other) ∧
      (s.concordance.reference = p → s.verdict other t = s.verdict other t') := by
  constructor
  · rintro rfl
    exact (simulation_padded textless).verdict_candidate_eq h other
  · rintro rfl
    exact (simulation_padded textless).verdict_reference_eq h other

/-! ### A comment with children of its own -/

/-- A function as it may stand in a dump of the compiler. -/
def functionTree : Tree :=
  .node ⟨0, "KtFile: a.kt", none, "funf", false⟩
    [.node ⟨1, "FUN", none, "funf", false⟩
      [.node ⟨2, "PsiElement", some "fun", "fun", true⟩ [],
        .node ⟨3, "PsiElement", some "IDENTIFIER", "f", true⟩ []]]

/-- The comment before it. -/
def commentTree : Tree :=
  .node ⟨2, "KDoc", none, "/***/", false⟩
    [.node ⟨3, "PsiElement", some "KDOC_START", "/**", true⟩ [],
      .node ⟨4, "PsiElement", some "KDOC_END", "*/", true⟩ []]

/-- The function with the comment, and with a blank between its tokens. -/
def commentedFunctionTree : Tree :=
  .node ⟨0, "KtFile: a.kt", none, "/***/fun f", false⟩
    [.node ⟨1, "FUN", none, "/***/fun f", false⟩
      [commentTree, .node ⟨5, "PsiElement", some "fun", "fun", true⟩ [],
        .node ⟨6, "PsiWhiteSpace", some "PsiWhiteSpace", " ", true⟩ [],
        .node ⟨7, "PsiElement", some "IDENTIFIER", "f", true⟩ []]]

/-- The function as it may stand in a dump of the generated parser. -/
def declarationTree : Tree :=
  .node ⟨0, "KotlinFile", none, "funf", false⟩
    [.node ⟨1, "FunctionDeclaration", none, "funf", false⟩
      [.node ⟨2, "PsiElement", some "FUN", "fun", true⟩ [],
        .node ⟨3, "SimpleIdentifier", none, "f", false⟩
          [.node ⟨4, "PsiElement", some "Identifier", "f", true⟩ []]]]

theorem padded_commentedFunctionTree :
    Padded KotlinPsi.concordance.reference functionTree commentedFunctionTree := by
  have hcomment : visible KotlinPsi.concordance.reference commentTree = false := by decide
  have hblank : visible KotlinPsi.concordance.reference
      (.node ⟨6, "PsiWhiteSpace", some "PsiWhiteSpace", " ", true⟩ []) = false := by decide
  exact .node ⟨rfl, rfl, rfl⟩ (.keep (.node ⟨rfl, rfl, rfl⟩
    (.insert hcomment rfl (.keep (.node ⟨rfl, rfl, rfl⟩ (.nil _))
      (.insert hblank rfl (.keep (.node ⟨rfl, rfl, rfl⟩ (.nil _)) (.nil _)))))) (.nil _))

/-- By the built-in settings, the comment and the blank change nothing in the reference. -/
theorem verdict_commentedFunctionTree :
    KotlinPsi.concordance.reference.inspectsText = false ∧
      Padded KotlinPsi.concordance.reference functionTree commentedFunctionTree ∧
      Comparison.verdict ⟨KotlinPsi.concordance, some 3⟩ declarationTree functionTree =
        Comparison.verdict ⟨KotlinPsi.concordance, some 3⟩ declarationTree
          commentedFunctionTree := by
  have htextless : KotlinPsi.concordance.reference.inspectsText = false := by decide
  exact ⟨htextless, padded_commentedFunctionTree,
    (verdict_padded htextless padded_commentedFunctionTree ⟨KotlinPsi.concordance, some 3⟩ _).2 rfl⟩

end TreeAccord
