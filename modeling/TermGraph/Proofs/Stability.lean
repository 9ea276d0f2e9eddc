import TermGraph.Proofs.Runs

/-!
# What was read stays true

A later state has everything that an earlier one had, so whatever was read
from the tables once is read again later: names, types and expressions as they
are, declarations up to their definition.  Everything that looks through
declarations — unwrapping templates, names of declarations, parameter types —
looks at headers only and so answers the same for ever.

A construction *repeats* when, having answered once, it answers the same at
every later state and changes nothing there (`Build.Repeats`).
-/

namespace TermGraph

/-- What does not look at definitions is the same for declarations with one
header. -/
theorem DeclKind.congr_header {α : Type} {f : DeclKind → α} (hf : ∀ kind, f kind.header = f kind)
    {kind kind' : DeclKind} (h : kind'.header = kind.header) : f kind' = f kind := by
  rw [← hf kind', h, hf kind]

/-- A template has no definition, so it is its own header. -/
theorem DeclKind.header_eq_template {kind : DeclKind} {parms : List DeclId} {inner : DeclId}
    {constraint : Option ExprId} :
    kind.header = .template parms inner constraint ↔ kind = .template parms inner constraint := by
  cases kind <;> simp [header, define?]

/-- Unwrapping ends at a declaration that is no template. -/
theorem Arena.coreWithin_of_ne_template {a : Arena} {steps : Nat} {d : DeclId} {kind : DeclKind}
    (hd : a.decl d = .ok kind)
    (h : ∀ parms inner constraint, kind ≠ .template parms inner constraint) :
    a.coreWithin (steps + 1) d = .ok (d, kind) := by
  rw [coreWithin, hd]
  cases kind with
  | template parms inner constraint => exact (h parms inner constraint rfl).elim
  | _ => rfl

namespace Arena.Precedes

variable {a b : Arena}

/-- Reading a declaration and going on without looking at its definition. -/
theorem decl_bind {α : Type} (hle : a.Precedes b) {d : DeclId} {f : DeclKind → Except Fault α}
    (hf : ∀ kind, f kind.header = f kind) {x : α} (h : (a.decl d >>= f) = .ok x) :
    (b.decl d >>= f) = .ok x := by
  obtain ⟨kind, hkind, h⟩ := bind_eq_ok.mp h
  obtain ⟨kind', hkind', hheader⟩ := hle.decl hkind
  have hsame : f kind' = f kind := DeclKind.congr_header hf hheader
  exact bind_eq_ok.mpr ⟨kind', hkind', hsame.trans h⟩

/-- A declaration stands for the same declaration later. -/
theorem parameterized (hle : a.Precedes b) {d target : DeclId}
    (h : a.parameterized d = .ok target) : b.parameterized d = .ok target :=
  hle.decl_bind (fun kind => by cases kind <;> rfl) h

/-- Unwrapping all templates ends at the same declaration. -/
theorem coreWithin (hle : a.Precedes b) {steps steps' : Nat} (hsteps : steps ≤ steps')
    {d core : DeclId} {kind : DeclKind} (h : a.coreWithin steps d = .ok (core, kind)) :
    ∃ kind', b.coreWithin steps' d = .ok (core, kind') ∧ kind'.header = kind.header := by
  induction steps generalizing steps' d with
  | zero => cases h
  | succ steps ih =>
      obtain ⟨steps', rfl⟩ : ∃ n, steps' = n + 1 := ⟨steps' - 1, by omega⟩
      have hwalk := h
      obtain ⟨found, hfound, h⟩ := bind_eq_ok.mp h
      obtain ⟨found', hfound', hheader⟩ := hle.decl hfound
      by_cases htemplate : ∃ parms inner constraint, found = .template parms inner constraint
      · obtain ⟨parms, inner, constraint, rfl⟩ := htemplate
        obtain rfl := DeclKind.header_eq_template.mp hheader
        rw [Arena.coreWithin, hfound']
        exact ih (by omega) h
      · -- Neither declaration is a template, so both walks stop here.
        have hne (parms inner constraint) : found ≠ .template parms inner constraint :=
          fun hfound => htemplate ⟨parms, inner, constraint, hfound⟩
        have hne' (parms inner constraint) : found' ≠ .template parms inner constraint := by
          rintro rfl
          exact hne parms inner constraint (DeclKind.header_eq_template.mp hheader.symm)
        have hstop : a.coreWithin (steps + 1) d = .ok (d, found) :=
          Arena.coreWithin_of_ne_template hfound hne
        obtain ⟨rfl, rfl⟩ := Prod.mk.inj (Except.ok.inj (hstop.symm.trans hwalk))
        exact ⟨found', Arena.coreWithin_of_ne_template hfound' hne', hheader⟩

/-- The declaration inside all templates is later the same one, but for its
definition. -/
theorem core (hle : a.Precedes b) {d core : DeclId} {kind : DeclKind}
    (h : a.core d = .ok (core, kind)) :
    ∃ kind', b.core d = .ok (core, kind') ∧ kind'.header = kind.header := by
  have hsize : a.decls.size ≤ b.decls.size := by simpa using hle.decls.length_le
  exact hle.coreWithin (by omega) h

/-- A parameter keeps its type. -/
theorem parameterType (hle : a.Precedes b) {d : DeclId} {ty : TypeId}
    (h : a.parameterType d = .ok ty) : b.parameterType d = .ok ty := by
  refine hle.decl_bind (fun kind => ?_) h
  cases kind with
  | function flavor => cases flavor <;> rfl
  | _ => rfl

/-- Parameters keep their types. -/
theorem mapM_parameterType (hle : a.Precedes b) {parms : List DeclId} {params : List TypeId}
    (h : parms.mapM a.parameterType = .ok params) : parms.mapM b.parameterType = .ok params := by
  rw [mapM_eq_ok] at h ⊢
  exact h.imp fun _ _ => hle.parameterType

end Arena.Precedes

/-- After it was interned a structure is in the table. -/
theorem Context.type_intern (cx : Context) (kind : TypeKind) :
    ((Effect.type kind).apply cx).type (cx.types.intern kind).1 = .ok kind :=
  fetch_eq_ok.mpr (cx.types.kinds.getElem?_intern kind)

namespace Context.Precedes

variable {cx cx' : Context}

/-- A stored type is later the same. -/
theorem type (hle : cx.Precedes cx') {ty : TypeId} {kind : TypeKind} (h : cx.type ty = .ok kind) :
    cx'.type ty = .ok kind :=
  fetch_later hle.types h

/-- A type is later split as it was. -/
theorem splitQualifiers (hle : cx.Precedes cx') {ty : TypeId} {parts : TypeId × Qualifiers}
    (h : cx.splitQualifiers ty = .ok parts) : cx'.splitQualifiers ty = .ok parts := by
  obtain ⟨kind, hkind, h⟩ := bind_eq_ok.mp h
  rw [Context.splitQualifiers, hle.type hkind]
  exact h

end Context.Precedes

namespace Build

variable {α β : Type} {cx : Context}

/-- A structure that is stored is found again. -/
theorem internType_of_type {ty : TypeId} {kind : TypeKind} (h : cx.type ty = .ok kind) :
    (internType kind).runOn cx = (.ok ty, cx) := by
  have hintern := Interner.intern_of_getElem? (fetch_eq_ok.mp h)
  simp only [runOn, internType, change, TypeTable.intern, hintern]

/-- Whatever the construction answers here it answers again at every later
state, and changes nothing there. -/
def Repeats (b : Build α) (cx : Context) : Prop :=
  ∀ x cx' later, b.runOn cx = (.ok x, cx') → cx.Precedes later → cx'.Precedes later →
    b.runOn later = (.ok x, later)

namespace Repeats

/-- An answer given at once is given again. -/
theorem pure {x : α} : Repeats (Pure.pure x) cx := by
  intro y cx' later h _ _
  cases h
  rfl

theorem throw {failure : Failure} : Repeats (MonadExcept.throw failure : Build α) cx := by
  intro y cx' later h _ _
  cases h

/-- Reading first what later goes on in the same way. -/
theorem read_bind {look : Context → Except Fault α} {f : α → Build β}
    (hlook : ∀ x, look cx = .ok x → ∀ later, cx.Precedes later →
      ∃ x', look later = .ok x' ∧ f x' = f x)
    (hf : ∀ x, look cx = .ok x → Repeats (f x) cx) : Repeats (Build.read look >>= f) cx := by
  intro y cx' later h hle hle'
  rw [runOn_bind, runOn_read] at h ⊢
  cases hx : look cx with
  | error fault =>
    rw [hx] at h
    cases h
  | ok x =>
    rw [hx] at h
    obtain ⟨x', hx', hf'⟩ := hlook x hx later hle
    rw [hx']
    show (f x').runOn later = _
    rw [hf']
    exact hf x hx y cx' later h hle hle'

/-- Reading first what stays as it is. -/
theorem read_bind_same {look : Context → Except Fault α} {f : α → Build β}
    (hlook : ∀ x, look cx = .ok x → ∀ later, cx.Precedes later → look later = .ok x)
    (hf : ∀ x, look cx = .ok x → Repeats (f x) cx) : Repeats (Build.read look >>= f) cx :=
  .read_bind (fun x hx later hle => ⟨x, hlook x hx later hle, rfl⟩) hf

/-- Reading a declaration first, when its definition makes no difference. -/
theorem decl_bind {d : DeclId} {f : DeclKind → Build β}
    (hsame : ∀ kind, f kind.header = f kind) (hf : ∀ kind, Repeats (f kind) cx) :
    Repeats (Build.decl d >>= f) cx := by
  refine .read_bind (fun kind hkind later hle => ?_) fun kind _ => hf kind
  obtain ⟨kind', hkind', hheader⟩ := hle.arena.decl hkind
  exact ⟨kind', hkind', DeclKind.congr_header hsame hheader⟩

/-- The type of a structure is interned once. -/
theorem internType {kind : TypeKind} : Repeats (Build.internType kind) cx := by
  intro ty cx' later h _ hle
  cases h
  exact internType_of_type (hle.type (cx.type_intern kind))

end Repeats

/-- The type is split as before, and its qualified form is found. -/
theorem qualifiedType_repeats {ty : TypeId} {quals : Qualifiers} :
    Repeats (qualifiedType ty quals) cx := by
  unfold qualifiedType
  split
  · exact .pure
  · exact .read_bind_same (fun _ h _ hle => hle.splitQualifiers h) fun _ _ => .internType

/-- The parameters have the types of before, and the function type is found. -/
theorem functionType_repeats {parms : List DeclId} {ret : TypeId} :
    Repeats (functionType parms ret) cx :=
  .read_bind_same (fun _ h _ hle => hle.arena.mapM_parameterType h) fun _ _ => .internType

/-- A type parameter is never anything else, and its type is found. -/
theorem typenameType_repeats {parm : DeclId} : Repeats (typenameType parm) cx := by
  refine .decl_bind (fun kind => ?_) fun kind => ?_
  · cases kind with
    | function flavor => cases flavor <;> rfl
    | _ => rfl
  · split
    · exact .internType
    · exact .throw

/-- What the declaration stands for is the same class, and its type is found. -/
theorem userType_repeats {d : DeclId} : Repeats (userType d) cx := by
  refine .read_bind_same (fun _ h _ hle => hle.arena.parameterized h) fun target _ => ?_
  refine .decl_bind (fun kind => ?_) fun kind => ?_
  · cases kind with
    | function flavor => cases flavor <;> rfl
    | _ => rfl
  · split
    · exact .internType
    · exact .throw

/-- The declared type is no part of a definition, so it is read again; that of a
class is found. -/
theorem declaredType_repeats {d : DeclId} : Repeats (declaredType d) cx := by
  refine .read_bind (fun core hcore later hle => ?_) fun core _ => ?_
  · obtain ⟨core, kind⟩ := core
    obtain ⟨kind', hkind', hheader⟩ := hle.arena.core hcore
    refine ⟨(core, kind'), hkind', ?_⟩
    apply DeclKind.congr_header (h := hheader)
    intro kind
    cases kind <;> rfl
  · obtain ⟨core, kind⟩ := core
    cases kind with
    | superclass | var | function | field | objectParm | valueParm | typeParm | concept =>
      exact .pure
    | classType => exact userType_repeats
    | template | nameSpace => exact .throw

/-- The settings do not change, and the type is found. -/
theorem plainInteger_repeats {signed : Bool} : Repeats (plainInteger signed) cx := by
  intro ty cx' later h hle hle'
  have hconfig : later.config.intPrecision = cx.config.intPrecision := by rw [hle.config]
  show (internType (.integer signed later.config.intPrecision)).runOn later = _
  rw [hconfig]
  exact Repeats.internType ty cx' later h hle hle'

end Build

/-- **Asking for a type again.**  Whatever type a request answered, it answers
again at every later state and changes nothing; only a type unlike any other
is another one each time. -/
theorem TypeRequest.perform_repeats {cx : Context} {request : TypeRequest}
    (h : request ≠ .placeholder) : Build.Repeats request.perform cx := by
  cases request with
  | void | bool | typeOfTypes => exact .pure
  | byte | integer | float | auto | declauto | functionOf | wrapped | synthetic | union | enum =>
    exact .internType
  | int | uint => exact Build.plainInteger_repeats
  | placeholder => exact (h rfl).elim
  | decltype | array | dynarray => exact .throw
  | function => exact Build.functionType_repeats
  | qualified => exact Build.qualifiedType_repeats
  | typename => exact Build.typenameType_repeats
  | user => exact Build.userType_repeats
  | declared => exact Build.declaredType_repeats

end TermGraph
