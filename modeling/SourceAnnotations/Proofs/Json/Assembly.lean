import SourceAnnotations.Proofs.Json.Lexing

/-!
# Putting documents together

The tokens of a document, wherever a value may stand, make its draft, and what comes next is decided
by the containers that are still open around it.  So a text that is a document has the draft of that
document and nothing left over.
-/

namespace SourceAnnotations.Json

/-- The tokens read on after a value is complete. -/
def Draft.resume (value : Draft) (around : List OpenDraft) (rest : List Token) :
    Draft × List Token :=
  match around with
  | [] => (value, rest)
  | container :: around => assemble .separator (container.add value :: around) rest

namespace Expecting

/-- Whether a value may come next. -/
def takesValue : Expecting → Bool
  | value | firstItem | item => true
  | _ => false

/-- Whether a key may come next. -/
def takesKey : Expecting → Bool
  | firstKey | key => true
  | _ => false

end Expecting

section

variable (around : List OpenDraft) (rest : List Token)

/-! ## Single tokens -/

section

variable {expecting : Expecting}

theorem progress_asValue {token : Token} (takesValue : expecting.takesValue)
    (noClosing : token ≠ .closeBracket) :
    token.progress expecting around = token.asValue around := by
  cases expecting with
  | value => rfl
  | firstItem | item => cases token <;> first | exact absurd rfl noClosing | rfl
  | _ => cases takesValue

theorem assemble_complete {token : Token} {value : Draft} {outside : List OpenDraft}
    (completes : token.progress expecting around = .complete value outside) :
    assemble expecting around (token :: rest) = value.resume outside rest := by
  rw [assemble, completes]
  cases outside <;> rfl

theorem assemble_openBracket (takesValue : expecting.takesValue) :
    assemble expecting around (Lexeme.openBracket.token :: rest) =
      assemble .firstItem (.list [] :: around) rest := by
  cases expecting with
  | value | firstItem | item => rfl
  | _ => cases takesValue

theorem assemble_openBrace (takesValue : expecting.takesValue) :
    assemble expecting around (Lexeme.openBrace.token :: rest) =
      assemble .firstKey (.object [] :: around) rest := by
  cases expecting with
  | value | firstItem | item => rfl
  | _ => cases takesValue

/-- A key and its colon. -/
theorem assemble_key (takesKey : expecting.takesKey) (done : List (Draft × Draft))
    (key : Literal) :
    assemble expecting (.object done :: around)
        ((Lexeme.quoted key).token :: Lexeme.colon.token :: rest) =
      assemble .value (.member done key.draft :: around) rest := by
  cases expecting with
  | firstKey | key => rfl
  | _ => cases takesKey

end

/-- An item is complete and more follow. -/
theorem resume_comma_items (value : Draft) (done : List Draft) :
    value.resume (.list done :: around) (Lexeme.comma.token :: rest) =
      assemble .item (.list (value :: done) :: around) rest :=
  rfl

theorem resume_comma_members (value key : Draft) (done : List (Draft × Draft)) :
    value.resume (.member done key :: around) (Lexeme.comma.token :: rest) =
      assemble .key (.object ((key, value) :: done) :: around) rest :=
  rfl

/-- The last item is complete. -/
theorem resume_closeBracket (value : Draft) (done : List Draft) :
    value.resume (.list done :: around) (Lexeme.closeBracket.token :: rest) =
      (Draft.list (done.reverse ++ [value]) .closed).resume around rest := by
  rw [← List.reverse_cons]
  exact assemble_complete _ rest rfl

theorem resume_closeBrace (value key : Draft) (done : List (Draft × Draft)) :
    value.resume (.member done key :: around) (Lexeme.closeBrace.token :: rest) =
      (Draft.object (done.reverse ++ [(key, value)]) .closed).resume around rest := by
  rw [← List.reverse_cons]
  exact assemble_complete _ rest rfl

/-! ## Containers -/

/-- The tokens of the document make its draft wherever a value may stand. -/
def Document.Assembles (document : Document) : Prop :=
  ∀ (expecting : Expecting) (around : List OpenDraft) (rest : List Token), expecting.takesValue →
    assemble expecting around (document.lexemes.map Lexeme.token ++ rest) =
      document.draft.resume around rest

theorem assemble_items (item : Document) (others : List Document) (done : List Draft)
    (expecting : Expecting) (takesValue : expecting.takesValue)
    (assembles : ∀ document ∈ item :: others, document.Assembles) :
    assemble expecting (.list done :: around)
        ((itemLexemes (item :: others)).map Lexeme.token ++ rest) =
      (Draft.list (done.reverse ++ itemDrafts (item :: others)) .closed).resume around rest := by
  induction others generalizing item done expecting with
  | nil =>
      have here := assembles item List.mem_cons_self
      simp only [itemLexemes, List.map_append, List.append_assoc, List.map_cons, List.cons_append]
      rw [here expecting _ _ takesValue, resume_closeBracket]
      rfl
  | cons next others inductionHypothesis =>
      obtain ⟨here, later⟩ := List.forall_mem_cons.mp assembles
      simp only [itemLexemes, List.map_append, List.append_assoc, List.map_cons, List.cons_append]
      rw [here expecting _ _ takesValue, resume_comma_items,
        inductionHypothesis next _ .item rfl later, List.reverse_cons,
        List.append_assoc]
      rfl

theorem assemble_members (member : Literal × Document) (others : List (Literal × Document))
    (done : List (Draft × Draft)) (expecting : Expecting) (takesKey : expecting.takesKey)
    (assembles : ∀ entry ∈ member :: others, entry.2.Assembles) :
    assemble expecting (.object done :: around)
        ((memberLexemes (member :: others)).map Lexeme.token ++ rest) =
      (Draft.object (done.reverse ++ memberDrafts (member :: others)) .closed).resume
        around rest := by
  induction others generalizing member done expecting with
  | nil =>
      have here := assembles member List.mem_cons_self
      simp only [memberLexemes, List.map_append, List.append_assoc, List.map_cons,
        List.cons_append]
      rw [assemble_key _ _ takesKey, here .value _ _ rfl, resume_closeBrace]
      rfl
  | cons next others inductionHypothesis =>
      obtain ⟨here, later⟩ := List.forall_mem_cons.mp assembles
      simp only [memberLexemes, List.map_append, List.append_assoc, List.map_cons,
        List.cons_append]
      rw [assemble_key _ _ takesKey, here .value _ _ rfl, resume_comma_members,
        inductionHypothesis next _ .key rfl later, List.reverse_cons,
        List.append_assoc]
      rfl

end

/-! ## Documents -/

theorem Document.assembles (document : Document) : document.Assembles := by
  intro expecting around rest takesValue
  induction document generalizing expecting around rest with
  | null => exact assemble_complete _ _ (progress_asValue around takesValue nofun)
  | boolean value => exact assemble_complete _ _ (progress_asValue around takesValue nofun)
  | number written => exact assemble_complete _ _ (progress_asValue around takesValue nofun)
  | text literal => exact assemble_complete _ _ (progress_asValue around takesValue nofun)
  | list items inductionHypothesis =>
      refine (assemble_openBracket around _ takesValue).trans ?_
      cases items with
      | nil => exact assemble_complete _ _ rfl
      | cons item others =>
          exact assemble_items around rest item others [] _ rfl inductionHypothesis
  | object members inductionHypothesis =>
      refine (assemble_openBrace around _ takesValue).trans ?_
      cases members with
      | nil => exact assemble_complete _ _ rfl
      | cons member others =>
          exact assemble_members around rest member others [] _ rfl inductionHypothesis

/-- The draft of a text that is a document is the draft of the document. -/
theorem Document.IsWrittenAs.readDraft_eq {document : Document} {text : Text}
    (written : document.IsWrittenAs text) : readDraft text = (document.draft, []) := by
  have whole := document.assembles .value [] [] rfl
  rw [List.append_nil] at whole
  rw [readDraft, written.tokens_eq, whole]
  rfl

end SourceAnnotations.Json
