import AdaSyntax.Proofs.Discipline.Budget
import AdaSyntax.Proofs.Parser.Restore

/-!
Where the texts in a tree come from. A name or a literal in a node is the text of a token, as it stands there or in upper
case. A program copies if it writes nothing into nodes but what it has read so; this is read off the program, by recursion
on it, and what a program that copies does when it runs is shown once for all programs.
-/

namespace AdaSyntax

variable {ρ τ : Type}

def Copied (tokens : Array Token) (text : String) : Prop :=
  ∃ token ∈ tokens, text = token.text ∨ text = (Name.ofText token.text).text

@[reducible] def DefiningName.texts (names : List (DefiningName ρ)) : List String := names.map (·.name.text)

@[reducible] def UnitPart.texts : UnitPart ρ → List String
  | withClause units => DefiningName.texts units
  | _ => []

@[reducible] def Decl.texts : Decl ρ → List String
  | object names .. | number names _ | exception names | parameter names .. | discriminant names ..
  | component names .. | formalObject names .. => DefiningName.texts names
  | type name .. | incompleteType name _ | privateType name .. | subtype name _ | renames name ..
  | subprogramSpec _ name .. | packageDecl name .. | packageBody name .. | formalType name ..
  | instantiation _ name .. | bodyStub (.package name) => DefiningName.texts [name]
  | _ => []

@[reducible] def TypeDef.texts : TypeDef ρ → List String
  | enumeration literals => DefiningName.texts literals
  | _ => []

@[reducible] def Expr.texts : Expr → List String
  | literal _ text => [text]
  | _ => []

@[reducible] def NameUse.texts : NameUse → List String
  | identifier name .. => [name.text]
  | selected _ selector .. => [selector.text]
  | attributeOf _ designator _ => [designator.text]
  | _ => []

@[reducible] def LoopScheme.texts : LoopScheme ρ → List String
  | forLoop parameter .. => DefiningName.texts [parameter]
  | _ => []

@[reducible] def Stmt.texts : Stmt ρ → List String
  | loop label scheme .. => DefiningName.texts label.toList ++ scheme.texts
  | block label .. => DefiningName.texts label.toList
  | labeled labels _ => DefiningName.texts labels
  | _ => []

@[reducible] def Payload.texts : Payload ρ → List String
  | placeholder => []
  | unit part => part.texts
  | decl part => part.texts
  | type part => part.texts
  | expr part => part.texts
  | name part => part.texts
  | stmt part => part.texts

theorem DefiningName.texts_map (f : ρ → τ) (names : List (DefiningName ρ)) :
    texts (names.map (·.map f)) = texts names := by
  rw [texts, List.map_map]
  rfl

theorem LoopScheme.texts_map (f : ρ → τ) (scheme : LoopScheme ρ) : (scheme.map f).texts = scheme.texts := by
  cases scheme <;> rfl

theorem Payload.texts_map (f : ρ → τ) (payload : Payload ρ) : (payload.map f).texts = payload.texts := by
  have hlabel : ∀ label : Option (DefiningName ρ), (label.map (·.map f)).toList = label.toList.map (·.map f) :=
    fun label => by cases label <;> rfl
  cases payload with
  | unit part => cases part <;> first | rfl | exact DefiningName.texts_map f _
  | decl part =>
    cases part with
    | bodyStub stub => cases stub <;> rfl
    | _ => first | rfl | exact DefiningName.texts_map f _
  | type part => cases part <;> first | rfl | exact DefiningName.texts_map f _
  | stmt part =>
    cases part with
    | loop label scheme _ _ =>
      change DefiningName.texts (label.map _).toList ++ (scheme.map f).texts = _
      rw [hlabel, DefiningName.texts_map, scheme.texts_map]
    | block label _ _ _ =>
      change DefiningName.texts (label.map _).toList = _
      rw [hlabel, DefiningName.texts_map]
    | labeled labels _ => exact DefiningName.texts_map f labels
    | _ => rfl
  | _ => rfl

class Textual (α : Type) where
  /-- All texts in the value that nodes may get were read from the tokens. -/
  isCopy : Array Token → α → Prop

class Wordless (α : Type) [Textual α] : Prop where
  isCopy (tokens : Array Token) (value : α) : Textual.isCopy tokens value

class Copy (tokens : Array Token) {α : Type} [Textual α] (value : α) : Prop where
  isCopy : Textual.isCopy tokens value

abbrev CopyOf (tokens : Array Token) (α : Type) [Textual α] : Type := {value : α // Textual.isCopy tokens value}

section

variable {α β : Type}

instance (priority := low) : Textual α := ⟨fun _ _ => True⟩

instance (priority := low) : Wordless α := ⟨fun _ _ => trivial⟩

instance : Textual String := ⟨Copied⟩

instance : Textual TokenAt := ⟨fun tokens token => ∃ read ∈ tokens, token.text = read.text⟩

instance : Textual Name := ⟨fun tokens name => Copied tokens name.text⟩

instance : Textual (DefiningName ρ) := ⟨fun tokens name => Copied tokens name.name.text⟩

instance : Textual (LoopScheme ρ) := ⟨fun tokens scheme => ∀ text ∈ scheme.texts, Copied tokens text⟩

section

variable [Textual α] [Textual β]

instance : Textual (List α) := ⟨fun tokens values => ∀ value ∈ values, Textual.isCopy tokens value⟩

instance : Textual (Option α) := ⟨fun tokens found => ∀ value ∈ found, Textual.isCopy tokens value⟩

instance : Textual (α × β) := ⟨fun tokens pair => Textual.isCopy tokens pair.1 ∧ Textual.isCopy tokens pair.2⟩

instance : Textual (α ⊕ β) := ⟨fun tokens => Sum.elim (Textual.isCopy tokens) (Textual.isCopy tokens)⟩

instance [Wordless α] : Wordless (List α) := ⟨fun tokens _ value _ => Wordless.isCopy tokens value⟩

instance [Wordless α] : Wordless (Option α) := ⟨fun tokens _ value _ => Wordless.isCopy tokens value⟩

instance [Wordless α] [Wordless β] : Wordless (α × β) :=
  ⟨fun tokens pair => ⟨Wordless.isCopy tokens pair.1, Wordless.isCopy tokens pair.2⟩⟩

end

variable {tokens : Array Token}

section

variable [Textual α] [Textual β]

instance (value : CopyOf tokens α) : Copy tokens value.1 := ⟨value.2⟩

instance [Wordless α] (value : α) : Copy tokens value := ⟨Wordless.isCopy tokens value⟩

instance : Copy tokens ([] : List α) := ⟨List.forall_mem_nil _⟩

instance (value : α) (values : List α) [h : Copy tokens value] [h' : Copy tokens values] :
    Copy tokens (value :: values) :=
  ⟨List.forall_mem_cons.mpr ⟨h.isCopy, h'.isCopy⟩⟩

instance (first second : List α) [h : Copy tokens first] [h' : Copy tokens second] : Copy tokens (first ++ second) :=
  ⟨List.forall_mem_append.mpr ⟨h.isCopy, h'.isCopy⟩⟩

instance (values : List α) [h : Copy tokens values] : Copy tokens values.reverse :=
  ⟨fun value hvalue => h.isCopy value (List.mem_reverse.mp hvalue)⟩

instance : Copy tokens (none : Option α) := ⟨fun _ hvalue => absurd hvalue (Option.not_mem_none _)⟩

instance (value : α) [h : Copy tokens value] : Copy tokens (some value) :=
  ⟨fun _ hvalue => Option.mem_some.mp hvalue ▸ h.isCopy⟩

instance (found : Option α) [h : Copy tokens found] : Copy tokens found.toList :=
  ⟨fun value hvalue => h.isCopy value (Option.mem_toList.mp hvalue)⟩

instance (first : α) (second : β) [h : Copy tokens first] [h' : Copy tokens second] : Copy tokens (first, second) :=
  ⟨⟨h.isCopy, h'.isCopy⟩⟩

instance (found : Option (α × β)) [h : Copy tokens found] : Copy tokens (found.map (·.1)) := by
  refine ⟨fun value hvalue => ?_⟩
  obtain ⟨pair, hpair, rfl⟩ := Option.map_eq_some_iff.mp hvalue
  exact (h.isCopy pair hpair).1

instance (value : α) [h : Copy tokens value] : Copy tokens (.inl value : α ⊕ β) := ⟨h.isCopy⟩

instance (value : β) [h : Copy tokens value] : Copy tokens (.inr value : α ⊕ β) := ⟨h.isCopy⟩

end

instance (token : TokenAt) [h : Copy tokens token] : Copy tokens token.text :=
  have ⟨read, hread, htext⟩ := h.isCopy
  ⟨read, hread, .inl htext⟩

instance (token : TokenAt) [h : Copy tokens token] : Copy tokens (Name.ofText token.text) :=
  have ⟨read, hread, htext⟩ := h.isCopy
  ⟨read, hread, .inr (htext ▸ rfl)⟩

instance (token : TokenAt) [h : Copy tokens token] : Copy tokens (Name.verbatim token.text) :=
  have ⟨read, hread, htext⟩ := h.isCopy
  ⟨read, hread, .inl htext⟩

instance (name : Name) [h : Copy tokens name] : Copy tokens name.text := ⟨h.isCopy⟩

instance (name : Name) (place : ρ) [h : Copy tokens name] : Copy tokens (DefiningName.mk name place) := ⟨h.isCopy⟩

instance (names : List (DefiningName ρ)) [h : Copy tokens names] : Copy tokens (names.map (·.name.text)) := by
  refine ⟨fun text htext => ?_⟩
  obtain ⟨name, hname, rfl⟩ := List.mem_map.mp htext
  exact h.isCopy name hname

instance : Copy tokens (.plain : LoopScheme ρ) := ⟨List.forall_mem_nil _⟩

instance (condition : NodeId) : Copy tokens (.whileLoop condition : LoopScheme ρ) := ⟨List.forall_mem_nil _⟩

instance (parameter : DefiningName ρ) (reverse : Bool) (range : NodeId) [h : Copy tokens parameter] :
    Copy tokens (LoopScheme.forLoop parameter reverse range) :=
  ⟨List.forall_mem_singleton.mpr h.isCopy⟩

instance (scheme : LoopScheme ρ) [h : Copy tokens scheme] : Copy tokens scheme.texts := ⟨h.isCopy⟩

end

namespace Op

@[reducible] def texts : ∀ {α : Type}, Op α → List String
  | _, .add _ payload | _, .fill _ _ payload => payload.texts
  | _, _ => []

def Reads (tokens : Array Token) : ∀ {α : Type}, Op α → α → Prop
  | _, .take, token | _, .expect _, token | _, .expectChoice _, token => ∃ read ∈ tokens, token.text = read.text
  | _, _, _ => True

end Op

namespace Program

def Writes (tokens : Array Token) : ∀ {α : Type}, Program α → (α → Prop) → Prop
  | _, .pure value, good => good value
  | _, .bind first next, good => Writes tokens first fun value => Writes tokens (next value) good
  | _, .step op, good => (∀ text ∈ op.texts, Copied tokens text) ∧ ∀ value, op.Reads tokens value → good value
  | _, .reject _, _ => True
  | _, .fail, _ => True
  | _, .call _, good => ∀ value, good value
  | _, .attempt body, good => Writes tokens body (fun value => good (some value)) ∧ good none
  | _, .nested body, good => Writes tokens body good
  | _, .loop body state, good =>
    ∃ keeps : _ → Prop, keeps state ∧ ∀ state, keeps state → Writes tokens (body state) (Sum.elim keeps good)
  | _, .items _ _ item, good => Writes tokens item (fun _ => True) ∧ ∀ nodes, good nodes

variable {α β σ : Type} {tokens : Array Token} {good good' : α → Prop}

theorem Writes.mono {program : Program α} (h : program.Writes tokens good) (hgood : ∀ value, good value → good' value) :
    program.Writes tokens good' := by
  induction program with
  | pure value => exact hgood value h
  | bind first next ihfirst ihnext => exact ihfirst h fun value hvalue => ihnext value hvalue hgood
  | step op => exact ⟨h.1, fun value hvalue => hgood value (h.2 value hvalue)⟩
  | reject | fail => trivial
  | call => exact fun value => hgood value (h value)
  | attempt body ih => exact ⟨ih h.1 fun value => hgood (some value), hgood none h.2⟩
  | nested body ih => exact ih h hgood
  | loop body state ih =>
    obtain ⟨keeps, hstate, hbody⟩ := h
    refine ⟨keeps, hstate, fun state hkeeps => ih state (hbody state hkeeps) fun result hresult => ?_⟩
    cases result with
    | inl state => exact hresult
    | inr value => exact hgood value hresult
  | items => exact ⟨h.1, fun nodes => hgood nodes (h.2 nodes)⟩

class Copies (tokens : Array Token) [Textual α] (program : Program α) : Prop where
  writes : program.Writes tokens (Textual.isCopy tokens)

section

variable [Textual α] [Textual β] [Textual σ]

theorem Copies.skip {first : Program β} {next : β → Program α} [h : first.Copies tokens]
    (hnext : ∀ value, Copy tokens value → (next value).Copies tokens) : (first >>= next).Copies tokens :=
  ⟨h.writes.mono fun value hvalue => (hnext value ⟨hvalue⟩).writes⟩

instance (value : α) [h : Copy tokens value] : Copies tokens (Pure.pure value : Program α) := ⟨h.isCopy⟩

instance (value : α) [h : Copy tokens value] : Copies tokens (Program.pure value) := ⟨h.isCopy⟩

instance (first : Program β) (next : β → Program α) [first.Copies tokens]
    [∀ value : CopyOf tokens β, (next value.1).Copies tokens] : Copies tokens (first >>= next) :=
  .skip fun value hvalue => inferInstanceAs ((next (⟨value, hvalue.isCopy⟩ : CopyOf tokens β).1).Copies tokens)

instance (first : Program β) (next : β → Program α) [first.Copies tokens]
    [∀ value : CopyOf tokens β, (next value.1).Copies tokens] : Copies tokens (.bind first next) :=
  inferInstanceAs (Copies tokens (first >>= next))

instance [Wordless α] (op : Op α) [h : Copy tokens op.texts] : Copies tokens (.step op) :=
  ⟨h.isCopy, fun value _ => Wordless.isCopy tokens value⟩

instance : Copies tokens (.step .take) := ⟨List.forall_mem_nil _, fun _ => id⟩

instance (kind : TokenKind) : Copies tokens (.step (.expect kind)) := ⟨List.forall_mem_nil _, fun _ => id⟩

instance (kind : TokenKind) : Copies tokens (.step (.expectChoice kind)) := ⟨List.forall_mem_nil _, fun _ => id⟩

instance (expected : String) : Copies tokens (.reject expected : Program α) := ⟨trivial⟩

instance : Copies tokens (.fail : Program α) := ⟨trivial⟩

instance [Wordless α] (production : Production α) : Copies tokens (.call production) := ⟨Wordless.isCopy tokens⟩

instance (body : Program α) [h : body.Copies tokens] : Copies tokens (.attempt body) :=
  ⟨h.writes.mono fun _ hvalue _ hsome => Option.mem_some.mp hsome ▸ hvalue, fun _ hnone =>
    absurd hnone (Option.not_mem_none _)⟩

instance (body : Program α) [h : body.Copies tokens] : Copies tokens (.nested body) := ⟨h.writes⟩

theorem Copies.loop {body : σ → Program (σ ⊕ α)} {state : σ} [h : Copy tokens state]
    (hbody : ∀ state, Copy tokens state → (body state).Copies tokens) : Copies tokens (.loop body state) :=
  ⟨Textual.isCopy tokens, h.isCopy, fun state hstate => (hbody state ⟨hstate⟩).writes⟩

instance (body : σ → Program (σ ⊕ α)) (state : σ) [Copy tokens state]
    [∀ state : CopyOf tokens σ, (body state.1).Copies tokens] : Copies tokens (.loop body state) :=
  .loop fun state hstate => inferInstanceAs ((body (⟨state, hstate.isCopy⟩ : CopyOf tokens σ).1).Copies tokens)

instance (context : Context) (code : Code) (item : Program NodeId) [h : item.Copies tokens] :
    Copies tokens (.items context code item) :=
  ⟨h.writes.mono fun _ _ => trivial, Wordless.isCopy tokens⟩

instance (condition : Prop) [Decidable condition] (first second : Program α) [first.Copies tokens]
    [second.Copies tokens] : Copies tokens (if condition then first else second) := by
  split <;> infer_instance

end

end Program

end AdaSyntax
