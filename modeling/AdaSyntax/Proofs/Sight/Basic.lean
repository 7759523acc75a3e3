import AdaSyntax.Proofs.Discipline.Basic

/-!
What programs look at. A program minds a set of positions when it only asks for the places of tokens in
this set, and it only looks behind a token that is neither a semicolon nor an end marker. Where all
alternatives have failed, one of them has left a record of where it failed. All of this is read off the
program, by recursion on it.
-/

namespace AdaSyntax

section Names

variable {ρ σ : Type}

def Decl.names : Decl ρ → List (DefiningName ρ)
  | .object names .. | .number names _ | .exception names | .parameter names .. | .discriminant names ..
  | .component names .. | .formalObject names .. => names
  | .type name .. | .incompleteType name _ | .privateType name .. | .subtype name _ | .renames name ..
  | .subprogramSpec _ name .. | .packageDecl name .. | .packageBody name .. | .formalType name ..
  | .instantiation _ name .. | .bodyStub (.package name) | .pragma name _ => [name]
  | _ => []

def TypeDef.names : TypeDef ρ → List (DefiningName ρ)
  | .enumeration literals => literals
  | _ => []

def LoopScheme.names : LoopScheme ρ → List (DefiningName ρ)
  | .forLoop parameter .. => [parameter]
  | _ => []

def Stmt.names : Stmt ρ → List (DefiningName ρ)
  | .loop label scheme .. => label.toList ++ scheme.names
  | .block label .. => label.toList
  | .labeled labels _ => labels
  | _ => []

def UnitPart.names : UnitPart ρ → List (DefiningName ρ)
  | .withClause units => units
  | _ => []

def Payload.names : Payload ρ → List (DefiningName ρ)
  | .unit part => part.names
  | .decl part => part.names
  | .type part => part.names
  | .stmt part => part.names
  | _ => []

theorem Payload.map_congr {f g : ρ → σ} {payload : Payload ρ}
    (h : ∀ name ∈ payload.names, f name.place = g name.place) : payload.map f = payload.map g := by
  cases payload with
  | unit part => cases part <;> simp_all [Payload.map, names, UnitPart.map, UnitPart.names, DefiningName.map]
  | decl part =>
    cases part with
    | bodyStub stub => cases stub <;> simp_all [Payload.map, names, Decl.map, Decl.names, Stub.map, DefiningName.map]
    | _ => simp_all [Payload.map, names, Decl.map, Decl.names, DefiningName.map]
  | type part => cases part <;> simp_all [Payload.map, names, TypeDef.map, TypeDef.names, DefiningName.map]
  | stmt part =>
    cases part with
    | loop label scheme statements endName =>
      cases label <;> cases scheme <;>
        simp_all [Payload.map, names, Stmt.map, Stmt.names, LoopScheme.map, LoopScheme.names, DefiningName.map]
    | block label declarations body endName =>
      cases label <;> simp_all [Payload.map, names, Stmt.map, Stmt.names, DefiningName.map]
    | _ => simp_all [Payload.map, names, Stmt.map, Stmt.names, DefiningName.map]
  | _ => rfl

end Names

def Finding.positions : Finding → List Nat
  | .endMismatch position .. | .mixedOperators position .. => [position]
  | _ => []

namespace Op

def Minds (seen : Nat → Prop) : ∀ {α : Type}, Op α → Prop
  | _, .followedBy first _ => first ≠ .semicolon ∧ first ≠ .endOfFile
  | _, .add start payload | _, .fill _ start payload => seen start ∧ ∀ name ∈ payload.names, seen name.place
  | _, .reserve start => seen start
  | _, .declare name .. => seen name.place
  | _, .find finding => ∀ position ∈ finding.positions, seen position
  | _, _ => True

def Shows (seen : Nat → Prop) : ∀ {α : Type}, Op α → α → Prop
  | _, .position, place => seen place
  | _, .take, token | _, .expect _, token | _, .expectChoice _, token => seen token.position
  | _, _, _ => True

end Op

namespace Program

variable {seen : Nat → Prop} {α β σ : Type}

def Heeds (seen : Nat → Prop) : ∀ {α : Type}, Program α → Bool → (Bool → α → Prop) → Prop
  | _, .pure value, noted, done => done noted value
  | _, .bind first next, noted, done =>
    Heeds seen first noted fun noted value => Heeds seen (next value) noted done
  | _, .step op, noted, done =>
    op.Minds seen ∧ ∀ value, op.Shows seen value → done (noted && !op.consumes) value
  | _, .reject _, _, _ => True
  | _, .fail, noted, _ => noted = true
  | _, .call _, _, done => ∀ value, done false value
  | _, .attempt body, _, done => Heeds seen body false (fun _ value => done false (some value)) ∧ done true none
  | _, .nested body, _, done => Heeds seen body false fun _ value => done false value
  | _, .loop body state, _, done =>
    ∃ keeps : _ → Prop, keeps state ∧ ∀ state, keeps state →
      Heeds seen (body state) false fun _ result =>
        match result with
        | .inl state => keeps state
        | .inr value => done false value
  | _, .items _ code item, _, done =>
    code ≠ .undeclaredTypeMark ∧ Heeds seen item false (fun _ _ => True) ∧ ∀ nodes, done false nodes

theorem Heeds.mono {program : Program α} {noted noted' : Bool} {done done' : Bool → α → Prop}
    (h : program.Heeds seen noted done) (hnoted : noted ≤ noted')
    (hdone : ∀ last last' value, last ≤ last' → done last value → done' last' value) :
    program.Heeds seen noted' done' := by
  induction program generalizing noted noted' with
  | pure value => exact hdone _ _ _ hnoted h
  | bind first next ihfirst ihnext =>
    exact ihfirst h hnoted fun last last' value hlast hnext => ihnext value hnext hlast hdone
  | step op =>
    refine ⟨h.1, fun value hvalue => hdone _ _ _ ?_ (h.2 value hvalue)⟩
    revert hnoted
    cases noted <;> cases noted' <;> cases op.consumes <;> decide
  | reject expected => trivial
  | fail => exact hnoted h
  | call production => exact fun value => hdone _ _ _ (Bool.le_refl _) (h value)
  | attempt body ih =>
    refine ⟨ih h.1 (Bool.le_refl _) fun _ _ value _ hvalue => ?_, hdone _ _ _ (Bool.le_refl _) h.2⟩
    exact hdone _ _ _ (Bool.le_refl _) hvalue
  | nested body ih => exact ih h (Bool.le_refl _) fun _ _ value _ hvalue => hdone _ _ _ (Bool.le_refl _) hvalue
  | loop body state ih =>
    obtain ⟨keeps, hstate, hround⟩ := h
    refine ⟨keeps, hstate, fun state hstate => ih state (hround state hstate) (Bool.le_refl _) fun _ _ result _ hresult => ?_⟩
    cases result with
    | inl state => exact hresult
    | inr value => exact hdone _ _ _ (Bool.le_refl _) hresult
  | items context code item ih =>
    exact ⟨h.1, h.2.1, fun nodes => hdone _ _ _ (Bool.le_refl _) (h.2.2 nodes)⟩

def Minds (seen : Nat → Prop) (program : Program α) (good : α → Prop) : Prop :=
  program.Heeds seen false fun _ => good

class Heedful (program : Program α) : Prop where
  minds : ∀ seen, program.Minds seen fun _ => True

namespace Minds

variable {good : α → Prop} {middle : β → Prop}

theorem bind {p : Program β} {next : β → Program α} (h : p.Minds seen middle)
    (hnext : ∀ value, middle value → (next value).Minds seen good) : (p >>= next).Minds seen good :=
  h.mono (Bool.le_refl _) fun _ _ value _ hvalue =>
    (hnext value hvalue).mono (Bool.false_le _) fun _ _ _ _ hgood => hgood

theorem skip {p : Program β} {next : β → Program α} [h : Heedful p]
    (hnext : ∀ value, (next value).Minds seen good) : (p >>= next).Minds seen good :=
  (h.minds seen).bind fun value _ => hnext value

theorem done {value : α} (h : good value) : (Pure.pure value : Program α).Minds seen good := h

theorem mono {program : Program α} {good' : α → Prop} (h : program.Minds seen good)
    (hgood : ∀ value, good value → good' value) : program.Minds seen good' :=
  Heeds.mono h (Bool.le_refl _) fun _ _ value _ => hgood value

theorem forget {program : Program α} (h : program.Minds seen good) : program.Minds seen fun _ => True :=
  h.mono fun _ _ => trivial

theorem heedful {program : Program α} {good : (Nat → Prop) → α → Prop}
    (h : ∀ seen, program.Minds seen (good seen)) : program.Heedful :=
  ⟨fun seen => (h seen).forget⟩

theorem of_heedful (program : Program α) [h : program.Heedful] : program.Minds seen fun _ => True := h.minds seen

theorem reject {expected : String} : (Program.reject expected : Program α).Minds seen good := trivial

theorem attempt {body : Program α} (h : body.Minds seen good) :
    (Program.attempt body).Minds seen fun found => ∀ value ∈ found, good value :=
  ⟨Heeds.mono h (Bool.le_refl _) fun _ _ _ _ hvalue _ hfound => Option.some.inj hfound ▸ hvalue, nofun⟩

theorem nested {body : Program α} (h : body.Minds seen good) : (Program.nested body).Minds seen good := h

theorem loop {body : σ → Program (σ ⊕ α)} {state : σ} (keeps : σ → Prop) (hstate : keeps state)
    (hround : ∀ state, keeps state → (body state).Minds seen (Sum.elim keeps good)) :
    (Program.loop body state).Minds seen good :=
  ⟨keeps, hstate, fun state hkeeps => Heeds.mono (hround state hkeeps) (Bool.le_refl _) fun _ _ result _ hresult => by
    cases result <;> exact hresult⟩

end Minds

end Program

end AdaSyntax
