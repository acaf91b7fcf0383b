import CommandFactory.Module.Rendering
import CommandFactory.Proofs.Token.TypeGrammar

/-!
# Tokens without their texts

What is left of tokens when the texts in their string literals are taken out (`Token.blanked`). The
pieces that program text is made of are blanked part by part, and list the texts of their parts in order.
-/

set_option autoImplicit false

namespace CommandFactory

namespace Token

/-! ## Blanking -/

mutual

/-- One token with an empty text in place of each text. -/
def blankedOne : Token → Token
  | .text _ => .text ""
  | .group delimiter content => .group delimiter (blanked content)
  | token => token

/-- Tokens with an empty text in place of each text. -/
def blanked : List Token → List Token
  | [] => []
  | token :: rest => blankedOne token :: blanked rest

end

@[simp]
theorem blanked_nil : blanked [] = [] := by rw [blanked]

@[simp]
theorem blanked_cons (token : Token) (rest : List Token) :
    blanked (token :: rest) = blankedOne token :: blanked rest := by rw [blanked]

@[simp]
theorem blanked_append (front back : List Token) :
    blanked (front ++ back) = blanked front ++ blanked back := by
  induction front with
  | nil => simp
  | cons token rest ih => simp [ih]

@[simp]
theorem texts_nil : texts [] = [] := by rw [texts]

@[simp]
theorem texts_cons (token : Token) (rest : List Token) :
    texts (token :: rest) = textsOne token ++ texts rest := by rw [texts]

@[simp]
theorem texts_append (front back : List Token) :
    texts (front ++ back) = texts front ++ texts back := by
  induction front with
  | nil => simp
  | cons token rest ih => simp [ih]

theorem Plain.texts_eq {tokens : List Token} (h : Plain tokens) : texts tokens = [] := h

mutual

theorem blankedOne_eq : ∀ token, textsOne token = [] → blankedOne token = token
  | .text value, h => by simp [textsOne] at h
  | .group delimiter content, h => by
      rw [blankedOne, Plain.blanked_eq content (plain_group.1 h)]
  | .identifier _, _ | .mark _ _, _ | .lifetime _, _ | .spelled _, _ => by simp [blankedOne]

/-- Plain tokens have nothing to blank. -/
theorem Plain.blanked_eq : ∀ tokens, Plain tokens → blanked tokens = tokens
  | [], _ => blanked_nil
  | token :: rest, h => by
      rw [plain_cons] at h
      rw [blanked_cons, blankedOne_eq token h.1, Plain.blanked_eq rest h.2]

end

/-! ## Pieces -/

theorem plain_wordTokens (word : List Char) : Plain (wordTokens word) := by
  unfold wordTokens
  split
  · exact plain_nil
  · split
    · simp [textsOne]
    · exact plain_operatorChars _

/-- Fixed program text has no texts, unless they are written as such. -/
theorem plain_words (text : String) : Plain (words text) := by
  unfold words
  induction splitSpaces text.toList with
  | nil => exact plain_nil
  | cons word rest ih =>
    rw [List.flatMap_cons, plain_append]
    exact ⟨plain_wordTokens word, ih⟩

@[simp]
theorem texts_words (text : String) : texts (words text) = [] := plain_words text

@[simp]
theorem blanked_words (text : String) : blanked (words text) = words text :=
  (plain_words text).blanked_eq

@[simp]
theorem textsOne_named (name : String) : textsOne (named name) = [] := by simp [named, textsOne]

@[simp]
theorem blankedOne_named (name : String) : blankedOne (named name) = named name := by
  simp [named, blankedOne]

@[simp]
theorem textsOne_text (value : String) : textsOne (.text value) = [value] := by rw [textsOne]

@[simp]
theorem blankedOne_text (value : String) : blankedOne (.text value) = .text "" := by rw [blankedOne]

@[simp]
theorem textsOne_group (delimiter : Delimiter) (content : List Token) :
    textsOne (.group delimiter content) = texts content := by rw [textsOne]

@[simp]
theorem blankedOne_group (delimiter : Delimiter) (content : List Token) :
    blankedOne (.group delimiter content) = .group delimiter (blanked content) := by rw [blankedOne]

@[simp]
theorem texts_commaSeparated (items : List (List Token)) :
    texts (commaSeparated items) = items.flatMap texts := by
  fun_induction commaSeparated items with
  | case1 => simp
  | case2 item => simp
  | case3 item next rest ih => simp [ih, textsOne]

@[simp]
theorem blanked_commaSeparated (items : List (List Token)) :
    blanked (commaSeparated items) = commaSeparated (items.map blanked) := by
  fun_induction commaSeparated items with
  | case1 => simp [commaSeparated]
  | case2 item => simp [commaSeparated]
  | case3 item next rest ih =>
    simp only [List.map_cons] at ih
    simp [ih, commaSeparated, blankedOne]

end Token

namespace Render

open Token

@[simp]
theorem texts_arguments (items : List (List Token)) :
    texts (arguments items) = items.flatMap texts := by
  simp [arguments, parens]

@[simp]
theorem blanked_arguments (items : List (List Token)) :
    blanked (arguments items) = arguments (items.map blanked) := by
  simp [arguments, parens]

@[simp]
theorem texts_call (callee : String) (items : List (List Token)) :
    texts (call callee items) = items.flatMap texts := by
  simp [call]

@[simp]
theorem blanked_call (callee : String) (items : List (List Token)) :
    blanked (call callee items) = call callee (items.map blanked) := by
  simp [call]

@[simp]
theorem texts_callStatement (callee : String) (items : List (List Token)) :
    texts (callStatement callee items) = items.flatMap texts := by
  simp [callStatement]

@[simp]
theorem blanked_callStatement (callee : String) (items : List (List Token)) :
    blanked (callStatement callee items) = callStatement callee (items.map blanked) := by
  simp [callStatement]

@[simp]
theorem texts_literal (text : String) : texts (literal text) = [text] := by simp [literal]

@[simp]
theorem blanked_literal (text : String) : blanked (literal text) = literal "" := by simp [literal]

@[simp]
theorem texts_literalList (values : List String) : texts (literalList values) = values := by
  simp [literalList, literals, brackets, List.flatMap_map]

@[simp]
theorem blanked_literalList (values : List String) :
    blanked (literalList values) = literalList (values.map fun _ => "") := by
  simp [literalList, literals, brackets, Function.comp_def]

@[simp]
theorem texts_newInstance (type : List Token) : texts (newInstance type) = texts type := by
  simp [newInstance]

@[simp]
theorem blanked_newInstance (type : List Token) :
    blanked (newInstance type) = newInstance (blanked type) := by
  simp [newInstance]

@[simp]
theorem texts_instanceType (type : List Token) : texts (instanceType type) = texts type := by
  simp [instanceType]

@[simp]
theorem blanked_instanceType (type : List Token) :
    blanked (instanceType type) = instanceType (blanked type) := by
  simp [instanceType]

@[simp]
theorem texts_assignment (member : Token) (value : List Token) :
    texts (assignment member value) = textsOne member ++ texts value := by
  simp [assignment]

@[simp]
theorem blanked_assignment (member : Token) (value : List Token) :
    blanked (assignment member value) = assignment (blankedOne member) (blanked value) := by
  simp [assignment]

end Render

namespace Renderer

open Token

@[simp]
theorem texts_procedureCall (callee : List Token) (items : List (List Token)) :
    texts (procedureCall callee items) = texts callee ++ items.flatMap texts := by
  simp [procedureCall]

@[simp]
theorem blanked_procedureCall (callee : List Token) (items : List (List Token)) :
    blanked (procedureCall callee items) =
      procedureCall (blanked callee) (items.map blanked) := by
  simp [procedureCall]

end Renderer

end CommandFactory
