import SqlxData.Macros.NamedParams
import SqlxData.Macros.SynType

/-!
Parameters on their way from the public method to the `_query` method. The one
declares the types of the trait, the other the types that the database takes,
and the call between them converts. Type and conversion are computed by two
functions of their own; this module says for which parameters they fit.
-/

namespace SqlxData.Macros

open SqlxData.Dynamic SynType

inductive ParamWrapper
  | json
  | bytesToVec
  | none
  deriving DecidableEq

/-- What of a method and of the build the transformation looks at. -/
structure ParamContext where
  backend : Backend
  isJsonQuery : Bool
  generics : Generics

/-- An expression over one variable, the parameter of the method or the
argument of a closure. -/
inductive CallExpr
  | var
  /-- `e.into()` -/
  | into (e : CallExpr)
  /-- `e.map(|inner| body)` -/
  | map (e body : CallExpr)
  /-- `e.as_deref()` -/
  | asDeref (e : CallExpr)
  /-- `&e` -/
  | ref (e : CallExpr)
  /-- `sqlx::types::Json(e)` -/
  | json (e : CallExpr)
  /-- `serde_json::to_value(&e).expect("JSON serialization failed")` -/
  | toValue (e : CallExpr)
  /-- `e.to_vec()` -/
  | toVec (e : CallExpr)
  deriving DecidableEq

/-! ### The transformation -/

namespace ParamContext

variable (m : ParamContext)

def isAlreadyDecorated (ty : SynType) : Bool := ty.isAlreadyJsonWrapped || ty.isVecU8Type

/-- A reference whose type gets no wrapper. -/
def isPlainReference : SynType → Bool
  | .reference _ elem =>
      match elem with
      | .path _ ident _ => ident = "str" || ident = "String"
      | _ => true
  | _ => false

def getBaseWrapper (ty : SynType) : ParamWrapper :=
  if isAlreadyDecorated ty then .none
  else if ty.isBytesType then .bytesToVec
  else if ty.isScalar m.backend then .none
  else if isPlainReference ty then .none
  else if ty.endsWithAny ["Value", "JsonValue"] then .none
  else if m.isJsonQuery then .json
  else .none

def applyWrapperToType (ty : SynType) : ParamWrapper → SynType
  | .json =>
      if m.backend = .postgres then .path ["serde_json"] "Value" .none
      else .generic ["sqlx", "types"] "Json" ty
  | .bytesToVec => .generic [] "Vec" (.named "u8")
  | .none => ty

/-- The element of a `Vec` that is handed on as a slice. -/
def sliceElem (ty : SynType) : Option SynType :=
  if m.isJsonQuery || ty.isVecU8Type || isTupleIterableType m.generics ty then none
  else ty.getVecInnerType

/-- The end of the pipeline: a slice, or the wrapper. -/
def transformBase (needsDecoration : Bool) (ty : SynType) : SynType :=
  match m.sliceElem ty with
  | some inner => .reference false (.slice inner)
  | none => if needsDecoration then m.applyWrapperToType ty (m.getBaseWrapper ty) else ty

def transformParamType (needsDecoration : Bool) (ty : SynType) : SynType :=
  match h : ty.extractOptionType with
  | some inner =>
      have := sizeOf_extractOptionType h
      .generic [] "Option" (transformParamType needsDecoration inner)
  | none => m.transformBase needsDecoration (ty.extractImplIntoType.getD ty)
termination_by sizeOf ty

def applyWrapperToCall (needsDecoration : Bool) (call : CallExpr) (ty : SynType) : CallExpr :=
  if !needsDecoration then call
  else
    match m.getBaseWrapper ty with
    | .json => if m.backend = .postgres then .toValue call else .json call
    | .bytesToVec => .toVec call
    | .none => call

def needsTransformation (needsDecoration : Bool) (ty : SynType) : Bool :=
  if ty.extractImplIntoType.isSome then true
  else if (m.sliceElem ty).isSome then true
  else if needsDecoration then m.getBaseWrapper ty ≠ .none
  else false

def transformParamCall (needsDecoration : Bool) (ty : SynType) : CallExpr :=
  match ty.extractOptionType with
  | some inner =>
      if m.needsTransformation needsDecoration inner then
        match inner.extractImplIntoType with
        | some intoInner => .map .var (m.applyWrapperToCall needsDecoration (.into .var) intoInner)
        | none =>
            -- here a `Vec` of tuples counts as well
            if !m.isJsonQuery && inner.getVecInnerType.isSome && !inner.isVecU8Type then
              .asDeref .var
            else .map .var (m.applyWrapperToCall needsDecoration .var inner)
      else .var
  | none =>
      match ty.extractImplIntoType with
      | some inner => m.applyWrapperToCall needsDecoration (.into .var) inner
      | none =>
          if (m.sliceElem ty).isSome then .ref .var
          else m.applyWrapperToCall needsDecoration .var ty

end ParamContext

/-! ### Types of expressions -/

/-- What the written types stand for: the names the generator knows, with and
without their paths, and every other type as it is written. -/
inductive RustType
  | written (ty : SynType)
  | option (t : RustType)
  | vec (t : RustType)
  | json (t : RustType)
  | jsonValue
  | bytes
  | slice (t : RustType)
  | ref (t : RustType)

def SynType.resolve : SynType → RustType
  | .path qualifier ident arguments =>
      if ident = "Bytes" then .bytes
      else if ident = "Value" ∨ ident = "JsonValue" then .jsonValue
      else
        match arguments with
        | .angleBracketed (.type inner :: rest) =>
            if ident = "Option" then .option inner.resolve
            else if ident = "Vec" then .vec inner.resolve
            else if ident = "Json" then .json inner.resolve
            else .written (.path qualifier ident (.angleBracketed (.type inner :: rest)))
        | arguments => .written (.path qualifier ident arguments)
  | .slice elem => .slice elem.resolve
  | .reference false elem => .ref elem.resolve
  | ty => .written ty

/-- The type of an expression when its variable has the type `x`. -/
inductive HasType : RustType → CallExpr → RustType → Prop
  | var {x} : HasType x .var x
  | into {x e bounds qualifier ty rest} : HasType x e (.written (.implTrait bounds)) →
      .trait qualifier "Into" (.angleBracketed (.type ty :: rest)) ∈ bounds →
      HasType x (.into e) ty.resolve
  | map {x e body t u} : HasType x e (.option t) → HasType t body u →
      HasType x (.map e body) (.option u)
  | asDeref {x e t} : HasType x e (.option (.vec t)) →
      HasType x (.asDeref e) (.option (.ref (.slice t)))
  | ref {x e t} : HasType x e t → HasType x (.ref e) (.ref t)
  | json {x e t} : HasType x e t → HasType x (.json e) (.json t)
  | toValue {x e t} : HasType x e t → HasType x (.toValue e) .jsonValue
  | toVec {x e} : HasType x e .bytes → HasType x (.toVec e) (.vec (.written (.named "u8")))

/-- An argument of the type `given` is accepted: the types are the same, or a
borrowed `Vec` is taken as a slice. -/
inductive Accepts : RustType → RustType → Prop
  | same {t} : Accepts t t
  | slice {t} : Accepts (.ref (.slice t)) (.ref (.vec t))

/-! ### Kinds of types -/

theorem resolve_of_option {ty inner : SynType} (h : ty.extractOptionType = some inner) :
    ty.resolve = .option inner.resolve := by
  obtain ⟨qualifier, rest, rfl⟩ := extractOptionType_eq_some.mp h
  rfl

theorem resolve_of_vec {ty inner : SynType} (h : ty.getVecInnerType = some inner) :
    ty.resolve = .vec inner.resolve := by
  obtain ⟨qualifier, rest, rfl⟩ := getVecInnerType_eq_some.mp h
  rfl

theorem resolve_of_bytes {ty : SynType} (h : ty.isBytesType) : ty.resolve = .bytes := by
  cases ty <;> try cases h
  rename_i qualifier ident arguments
  obtain rfl : ident = "Bytes" := by simpa [isBytesType, endsWithAny] using h
  rcases arguments with _ | (_ | ⟨_ | _ | _, _⟩) | _ <;> rfl

/-- The types of all `Into` bounds. -/
def SynType.intoTypes : SynType → List SynType
  | .implTrait bounds =>
      bounds.filterMap fun
        | .trait _ ident arguments => if ident = "Into" then arguments.firstType else none
        | .lifetime _ => none
  | _ => []

theorem extractImplIntoType_eq (ty : SynType) : ty.extractImplIntoType = ty.intoTypes.head? := by
  cases ty <;> try rfl
  exact List.head?_filterMap.symm

theorem mem_intoTypes_iff {bounds : List TypeParamBound} {inner : SynType} :
    inner ∈ (implTrait bounds).intoTypes ↔
      ∃ qualifier rest,
        .trait qualifier "Into" (.angleBracketed (.type inner :: rest)) ∈ bounds := by
  constructor
  · intro h
    obtain ⟨bound, hbound, hinner⟩ := List.mem_filterMap.mp h
    cases bound with
    | lifetime name => cases hinner
    | trait qualifier ident arguments =>
        dsimp only at hinner
        split at hinner
        · obtain ⟨rest, rfl⟩ := firstType_eq_some.mp hinner
          subst_vars
          exact ⟨qualifier, rest, hbound⟩
        · cases hinner
  · rintro ⟨qualifier, rest, hbound⟩
    exact List.mem_filterMap.mpr ⟨_, hbound, rfl⟩

/-! ### Typing -/

section Typing

variable {x t u : RustType} {e body : CallExpr}

theorem hasType_var_iff : HasType x .var t ↔ t = x := by
  constructor
  · rintro ⟨⟩
    rfl
  · rintro rfl
    exact .var

theorem hasType_map_iff (he : ∀ t, HasType x e t ↔ t = .option u) :
    HasType x (.map e body) t ↔ ∃ v, HasType u body v ∧ t = .option v := by
  constructor
  · rintro ⟨⟩
    rename_i s v hs hv
    cases (he _).mp hs
    exact ⟨v, hv, rfl⟩
  · rintro ⟨v, hv, rfl⟩
    exact .map ((he _).mpr rfl) hv

theorem hasType_into_iff {bounds : List TypeParamBound}
    (he : ∀ t, HasType x e t ↔ t = .written (.implTrait bounds)) :
    HasType x (.into e) t ↔ ∃ inner ∈ (implTrait bounds).intoTypes, t = inner.resolve := by
  constructor
  · rintro ⟨⟩
    rename_i bounds' qualifier ty rest hbound hty
    cases (he _).mp hty
    exact ⟨ty, mem_intoTypes_iff.mpr ⟨qualifier, rest, hbound⟩, rfl⟩
  · rintro ⟨inner, hinner, rfl⟩
    obtain ⟨qualifier, rest, hbound⟩ := mem_intoTypes_iff.mp hinner
    exact .into ((he _).mpr rfl) hbound

theorem HasType.applyWrapper (m : ParamContext) (needsDecoration : Bool) {ty : SynType}
    (he : HasType x e ty.resolve) :
    HasType x (m.applyWrapperToCall needsDecoration e ty)
      (if needsDecoration then m.applyWrapperToType ty (m.getBaseWrapper ty) else ty).resolve := by
  cases needsDecoration with
  | false => exact he
  | true =>
      rw [ParamContext.applyWrapperToCall, if_neg (by decide), if_pos rfl]
      cases hwrapper : m.getBaseWrapper ty with
      | none => exact he
      | json =>
          dsimp only [ParamContext.applyWrapperToType]
          split
          · exact .toValue he
          · exact .json he
      | bytesToVec =>
          have hbytes : ty.isBytesType := by
            unfold ParamContext.getBaseWrapper at hwrapper
            split_ifs at hwrapper
            assumption
          rw [resolve_of_bytes hbytes] at he
          exact .toVec he

end Typing

/-! ### Wrappers of generic types -/

namespace ParamContext

variable {m : ParamContext} {needsDecoration : Bool} {ty inner elem : SynType}

theorem transformParamType_option (h : ty.extractOptionType = some inner) :
    m.transformParamType needsDecoration ty =
      .generic [] "Option" (m.transformParamType needsDecoration inner) := by
  rw [transformParamType]
  split
  · rename_i found hfound
    rw [h] at hfound
    rw [Option.some.inj hfound]
  · rename_i hnone
    rw [h] at hnone
    cases hnone

theorem transformParamType_base (h : ty.extractOptionType = none) :
    m.transformParamType needsDecoration ty =
      m.transformBase needsDecoration (ty.extractImplIntoType.getD ty) := by
  rw [transformParamType]
  split
  · rename_i found hfound
    rw [h] at hfound
    cases hfound
  · rfl

theorem sliceElem_eq_some (h : m.sliceElem ty = some elem) :
    m.isJsonQuery = false ∧ ty.isVecU8Type = false ∧ ty.getVecInnerType = some elem := by
  unfold sliceElem at h
  split_ifs at h with hskip
  simp only [Bool.or_eq_true, not_or, Bool.not_eq_true] at hskip
  exact ⟨hskip.1.1, hskip.1.2, h⟩

theorem not_scalar {qualifier : List String} {ident : String} {arguments : PathArguments}
    (h : ident = "Option" ∨ ident = "Vec") :
    SynType.isScalar m.backend (.path qualifier ident arguments) = false := by
  change (scalarNames m.backend).contains ident = false
  obtain rfl | rfl := h <;> cases m.backend <;> decide

theorem getBaseWrapper_option (h : ty.extractOptionType = some inner) :
    m.getBaseWrapper ty = if m.isJsonQuery then .json else .none := by
  obtain ⟨qualifier, rest, rfl⟩ := extractOptionType_eq_some.mp h
  unfold getBaseWrapper
  rw [not_scalar (.inl rfl)]
  rfl

theorem getBaseWrapper_vec (h : ty.getVecInnerType = some inner) (hjson : m.isJsonQuery = false) :
    m.getBaseWrapper ty = .none := by
  obtain ⟨qualifier, rest, rfl⟩ := getVecInnerType_eq_some.mp h
  unfold getBaseWrapper
  rw [not_scalar (.inr rfl), hjson]
  split_ifs <;> first | rfl | contradiction

/-! ### What the transformation leaves alone -/

theorem endsWith_value (h : ty.resolve = .jsonValue) :
    ty.endsWithAny ["Value", "JsonValue"] = true := by
  cases ty with
  | path qualifier ident arguments =>
      have hident : ident = "Value" ∨ ident = "JsonValue" := by
        rcases arguments with _ | (_ | ⟨_ | _ | _, _⟩) | _ <;>
          (simp only [SynType.resolve] at h; split_ifs at h; assumption)
      simpa [endsWithAny] using hident
  | reference mutability elem => cases mutability <;> cases h
  | _ => cases h

theorem getBaseWrapper_of_value (h : ty.resolve = .jsonValue) : m.getBaseWrapper ty = .none := by
  unfold getBaseWrapper
  rw [endsWith_value h, if_pos rfl]
  split_ifs with _ hbytes
  · rfl
  · rw [resolve_of_bytes hbytes] at h
    cases h
  · rfl
  · rfl
  · rfl

theorem getBaseWrapper_bytes (h : m.getBaseWrapper ty = .bytesToVec) : ty.resolve = .bytes := by
  apply resolve_of_bytes
  unfold getBaseWrapper at h
  split_ifs at h
  assumption

/-- A wrapper changes the type. -/
theorem applyWrapperToType_ne (h : m.getBaseWrapper ty ≠ .none) :
    (m.applyWrapperToType ty (m.getBaseWrapper ty)).resolve ≠ ty.resolve := by
  cases hwrapper : m.getBaseWrapper ty with
  | none => exact absurd hwrapper h
  | bytesToVec =>
      rw [getBaseWrapper_bytes hwrapper]
      intro heq
      cases heq
  | json =>
      dsimp only [applyWrapperToType]
      split
      · intro heq
        exact h (getBaseWrapper_of_value heq.symm)
      · intro heq
        have hsize := congrArg sizeOf heq
        simp [SynType.generic, SynType.resolve] at hsize

theorem sizeOf_intoTypes {bounds : List TypeParamBound}
    (h : inner ∈ (implTrait bounds).intoTypes) : sizeOf inner < sizeOf bounds := by
  obtain ⟨qualifier, rest, hbound⟩ := mem_intoTypes_iff.mp h
  have := List.sizeOf_lt_of_mem hbound
  simp at this
  omega

/-- The type under all `Option`s. -/
def innermost (ty : SynType) : SynType :=
  match h : ty.extractOptionType with
  | some inner =>
      have := sizeOf_extractOptionType h
      innermost inner
  | none => ty
termination_by sizeOf ty

theorem innermost_option (h : ty.extractOptionType = some inner) :
    innermost ty = innermost inner := by
  rw [innermost]
  split
  · rename_i found hfound
    rw [h] at hfound
    rw [Option.some.inj hfound]
  · rename_i hnone
    rw [h] at hnone
    cases hnone

theorem innermost_base (h : ty.extractOptionType = none) : innermost ty = ty := by
  rw [innermost]
  split
  · rename_i found hfound
    rw [h] at hfound
    cases hfound
  · rfl

theorem needsTransformation_iff : m.needsTransformation needsDecoration ty = false ↔
    ty.extractImplIntoType = none ∧ m.sliceElem ty = none ∧
      (needsDecoration = true → m.getBaseWrapper ty = .none) := by
  unfold needsTransformation
  cases ty.extractImplIntoType <;> cases m.sliceElem ty <;> cases needsDecoration <;> simp

theorem transformBase_slice (h : m.sliceElem ty = some elem) :
    m.transformBase needsDecoration ty = .reference false (.slice elem) := by
  rw [transformBase, h]

theorem transformBase_wrapped (h : m.sliceElem ty = none) :
    m.transformBase needsDecoration ty =
      if needsDecoration then m.applyWrapperToType ty (m.getBaseWrapper ty) else ty := by
  rw [transformBase, h]

theorem eq_of_resolve_written {u : SynType} (h : ty.resolve = .written u) : u = ty := by
  cases ty with
  | path qualifier ident arguments =>
      rcases arguments with _ | (_ | ⟨_ | _ | _, _⟩) | _ <;>
        (simp only [SynType.resolve] at h
         split_ifs at h
         exact (RustType.written.inj h).symm)
  | reference mutability elem =>
      cases mutability <;> cases h
      rfl
  | slice elem => cases h
  | _ =>
      cases h
      rfl

/-- What an `impl Into` becomes is another type. -/
theorem transformBase_into_ne {bounds : List TypeParamBound}
    (h : inner ∈ (implTrait bounds).intoTypes) :
    (m.transformBase needsDecoration inner).resolve ≠ (implTrait bounds).resolve := by
  intro heq
  have hinner : inner.resolve ≠ .written (implTrait bounds) := by
    intro hwritten
    have hsize : sizeOf inner < sizeOf bounds := sizeOf_intoTypes h
    rw [← eq_of_resolve_written hwritten, implTrait.sizeOf_spec] at hsize
    omega
  cases hslice : m.sliceElem inner with
  | some elem =>
      rw [transformBase_slice hslice] at heq
      cases heq
  | none =>
      rw [transformBase_wrapped hslice] at heq
      split at heq
      · cases hwrapper : m.getBaseWrapper inner with
        | none =>
            rw [hwrapper] at heq
            exact hinner heq
        | bytesToVec =>
            rw [hwrapper] at heq
            cases heq
        | json =>
            rw [hwrapper, applyWrapperToType] at heq
            split at heq <;> cases heq
      · exact hinner heq

theorem exists_of_extractImplIntoType (h : ty.extractImplIntoType = some inner) :
    ∃ bounds, ty = implTrait bounds ∧ inner ∈ (implTrait bounds).intoTypes := by
  cases ty <;> try cases h
  rename_i bounds
  rw [extractImplIntoType_eq] at h
  exact ⟨bounds, rfl, List.mem_of_head? h⟩

/-- The type is left alone exactly when the one under its `Option`s is. -/
theorem transformParamType_same_iff :
    (m.transformParamType needsDecoration ty).resolve = ty.resolve ↔
      m.needsTransformation needsDecoration (innermost ty) = false := by
  induction hn : sizeOf ty using Nat.strong_induction_on generalizing ty with
  | _ n ih =>
    cases hoption : ty.extractOptionType with
    | some inner =>
        have hinner := ih (sizeOf inner) (hn ▸ sizeOf_extractOptionType hoption) rfl
        rw [transformParamType_option hoption, innermost_option hoption, ← hinner,
          resolve_of_option hoption]
        exact ⟨fun h => RustType.option.inj h, fun h => congrArg RustType.option h⟩
    | none =>
        rw [transformParamType_base hoption, innermost_base hoption, needsTransformation_iff]
        cases hinto : ty.extractImplIntoType with
        | some inner =>
            obtain ⟨bounds, rfl, hmem⟩ := exists_of_extractImplIntoType hinto
            exact iff_of_false (transformBase_into_ne hmem) fun h => by cases h.1
        | none =>
            rw [Option.getD_none]
            cases hslice : m.sliceElem ty with
            | some elem =>
                rw [transformBase_slice hslice,
                  resolve_of_vec (sliceElem_eq_some hslice).2.2]
                exact iff_of_false (fun h => by cases h) fun h => by cases h.2.1
            | none =>
                rw [transformBase_wrapped hslice]
                cases needsDecoration with
                | false => simp
                | true =>
                    by_cases hwrapper : m.getBaseWrapper ty = .none
                    · simp [hwrapper, applyWrapperToType]
                    · simpa [hwrapper] using applyWrapperToType_ne hwrapper

/-! ### Calls that fit -/

/-- The public method can call the `_query` method with this parameter. -/
def CallFits (m : ParamContext) (needsDecoration : Bool) (ty : SynType) : Prop :=
  ∃ given, HasType ty.resolve (m.transformParamCall needsDecoration ty) given ∧
    Accepts (m.transformParamType needsDecoration ty).resolve given

/-- An `impl Into<Vec<T>>` is to become a slice, and is into no slice itself. -/
def IntoSlice (m : ParamContext) (accepted : RustType → RustType → Prop) (ty : SynType) : Prop :=
  ∃ inner elem, ty.extractImplIntoType = some inner ∧ m.sliceElem inner = some elem ∧
    ∀ u ∈ ty.intoTypes, ¬accepted (.ref (.slice elem.resolve)) u.resolve

/-- Type and conversion go apart: an `impl Into<Vec<T>>`, also in an `Option`,
and an `Option` in an `Option` around something that is converted. -/
def Mismatched (m : ParamContext) (needsDecoration : Bool) (ty : SynType) : Prop :=
  match ty.extractOptionType with
  | none => m.IntoSlice Accepts ty
  | some inner =>
      m.IntoSlice (· = ·) inner ∨ inner.extractOptionType.isSome ∧
        (m.needsTransformation needsDecoration inner ∨
          m.needsTransformation needsDecoration (innermost inner))

theorem accepts_option_iff {t u : RustType} : Accepts (.option t) u ↔ u = .option t := by
  constructor
  · rintro ⟨⟩
    rfl
  · rintro rfl
    exact .same

theorem applyWrapperToCall_slice (h : m.sliceElem ty = some elem) (e : CallExpr) :
    m.applyWrapperToCall needsDecoration e ty = e := by
  obtain ⟨hjson, -, hvec⟩ := sliceElem_eq_some h
  rw [applyWrapperToCall, getBaseWrapper_vec hvec hjson]
  cases needsDecoration <;> rfl

/-- Without a slice, type and call get the same wrapper. -/
theorem hasType_transformBase {x : RustType} {e : CallExpr} (h : m.sliceElem ty = none)
    (he : HasType x e ty.resolve) :
    HasType x (m.applyWrapperToCall needsDecoration e ty)
      (m.transformBase needsDecoration ty).resolve := by
  rw [transformBase_wrapped h]
  exact he.applyWrapper m needsDecoration

theorem hasType_into {bounds : List TypeParamBound}
    (h : inner ∈ (implTrait bounds).intoTypes) :
    HasType (implTrait bounds).resolve (.into .var) inner.resolve :=
  (hasType_into_iff fun _ => hasType_var_iff).mpr ⟨inner, h, rfl⟩

/-- The call that converts an `impl Into` fits, or there is a slice to give. -/
theorem into_fits_iff {bounds : List TypeParamBound} (accepted : RustType → RustType → Prop)
    (hsame : ∀ t, accepted t t)
    (hinto : (implTrait bounds).extractImplIntoType = some inner) :
    (∃ given, HasType (implTrait bounds).resolve
        (m.applyWrapperToCall needsDecoration (.into .var) inner) given ∧
      accepted (m.transformBase needsDecoration inner).resolve given) ↔
      ¬m.IntoSlice accepted (implTrait bounds) := by
  obtain ⟨_, h, hmem⟩ := exists_of_extractImplIntoType hinto
  cases h
  cases hslice : m.sliceElem inner with
  | none =>
      refine iff_of_true ⟨_, hasType_transformBase hslice (hasType_into hmem), hsame _⟩ ?_
      rintro ⟨inner', elem, hinner', helem, -⟩
      rw [hinto] at hinner'
      rw [← Option.some.inj hinner', hslice] at helem
      cases helem
  | some elem =>
      rw [applyWrapperToCall_slice hslice, transformBase_slice hslice]
      constructor
      · rintro ⟨given, hgiven, haccepted⟩ ⟨inner', elem', hinner', helem', hall⟩
        rw [hinto] at hinner'
        rw [← Option.some.inj hinner', hslice] at helem'
        obtain ⟨u, hu, rfl⟩ := (hasType_into_iff fun _ => hasType_var_iff).mp hgiven
        exact hall u hu (Option.some.inj helem' ▸ haccepted)
      · intro hnot
        by_contra hgiven
        refine hnot ⟨inner, elem, hinto, hslice, fun u hu haccepted => hgiven ?_⟩
        exact ⟨u.resolve, hasType_into hu, haccepted⟩

/-- Every other parameter without `Option` fits. -/
theorem base_fits :
    ∃ given, HasType ty.resolve (if (m.sliceElem ty).isSome then .ref .var
        else m.applyWrapperToCall needsDecoration .var ty) given ∧
      Accepts (m.transformBase needsDecoration ty).resolve given := by
  cases hslice : m.sliceElem ty with
  | none => exact ⟨_, hasType_transformBase hslice .var, .same⟩
  | some elem =>
      rw [transformBase_slice hslice, resolve_of_vec (sliceElem_eq_some hslice).2.2]
      exact ⟨_, .ref .var, .slice⟩

theorem hasType_map_var_iff {t u : RustType} {body : CallExpr} :
    HasType (.option t) (.map .var body) (.option u) ↔ HasType t body u := by
  rw [hasType_map_iff fun _ => hasType_var_iff]
  constructor
  · rintro ⟨v, hv, heq⟩
    exact RustType.option.inj heq ▸ hv
  · exact fun h => ⟨u, h, rfl⟩

/-- The call for the type in an `Option`. -/
def optionCall (m : ParamContext) (needsDecoration : Bool) (inner : SynType) : CallExpr :=
  if !m.isJsonQuery && inner.getVecInnerType.isSome && !inner.isVecU8Type then .asDeref .var
  else .map .var (m.applyWrapperToCall needsDecoration .var inner)

theorem option_base_fits (hoption : inner.extractOptionType = none)
    (hinto : inner.extractImplIntoType = none)
    (hneeds : m.needsTransformation needsDecoration inner = true) :
    HasType (.option inner.resolve) (m.optionCall needsDecoration inner)
      (.option (m.transformParamType needsDecoration inner).resolve) := by
  rw [transformParamType_base hoption, hinto, Option.getD_none, optionCall]
  cases hslice : m.sliceElem inner with
  | some elem =>
      obtain ⟨hjson, hu8, hvec⟩ := sliceElem_eq_some hslice
      rw [transformBase_slice hslice, hjson, hu8, hvec, resolve_of_vec hvec]
      exact .asDeref .var
  | none =>
      -- a `Vec` that is no slice needs no conversion outside of JSON queries
      have hcondition : (!m.isJsonQuery && inner.getVecInnerType.isSome && !inner.isVecU8Type) =
          false := by
        by_contra hvec
        simp only [Bool.not_eq_false, Bool.and_eq_true, Bool.not_eq_true'] at hvec
        obtain ⟨elem, helem⟩ := Option.isSome_iff_exists.mp hvec.1.2
        have hnot : m.needsTransformation needsDecoration inner = false :=
          needsTransformation_iff.mpr ⟨hinto, hslice, fun _ => getBaseWrapper_vec helem hvec.1.1⟩
        rw [hneeds] at hnot
        cases hnot
      rw [hcondition, if_neg (by decide)]
      exact hasType_map_var_iff.mpr (hasType_transformBase hslice .var)

/-- In a JSON query the inner `Option` is wrapped, its type is not. -/
theorem option_option_fails {inner' : SynType} (hoption : inner.extractOptionType = some inner')
    (hneeds : m.needsTransformation needsDecoration inner = true) :
    ¬HasType (.option inner.resolve) (m.optionCall needsDecoration inner)
      (.option (m.transformParamType needsDecoration inner).resolve) := by
  have hwrapper := getBaseWrapper_option (m := m) hoption
  obtain ⟨qualifier, rest, rfl⟩ := extractOptionType_eq_some.mp hoption
  have hslice : m.sliceElem (.path qualifier "Option" (.angleBracketed (.type inner' :: rest))) =
      none := by
    unfold sliceElem
    split_ifs <;> rfl
  have hjson : needsDecoration = true ∧ m.isJsonQuery = true := by
    by_contra hnot
    have hfalse : m.needsTransformation needsDecoration
        (.path qualifier "Option" (.angleBracketed (.type inner' :: rest))) = false := by
      refine needsTransformation_iff.mpr ⟨rfl, hslice, fun hdecoration => ?_⟩
      rw [hwrapper, if_neg fun hjson => hnot ⟨hdecoration, hjson⟩]
    rw [hneeds] at hfalse
    cases hfalse
  rw [optionCall, hjson.2, transformParamType_option hoption, Bool.not_true, Bool.false_and,
    Bool.false_and, if_neg (by decide), hasType_map_var_iff, applyWrapperToCall, hjson.1,
    hwrapper, hjson.2]
  intro h
  simp only [Bool.not_true, Bool.false_eq_true, if_false, if_true] at h
  split at h <;> cases h

theorem call_fits_iff (m : ParamContext) (needsDecoration : Bool) (ty : SynType) :
    m.CallFits needsDecoration ty ↔ ¬m.Mismatched needsDecoration ty := by
  unfold CallFits Mismatched transformParamCall
  cases hoption : ty.extractOptionType with
  | none =>
      rw [transformParamType_base hoption]
      dsimp only
      cases hinto : ty.extractImplIntoType with
      | some inner =>
          obtain ⟨bounds, rfl, -⟩ := exists_of_extractImplIntoType hinto
          exact into_fits_iff Accepts (fun _ => .same) hinto
      | none =>
          refine iff_of_true base_fits ?_
          rintro ⟨inner, elem, hinner, -⟩
          rw [hinto] at hinner
          cases hinner
  | some inner =>
      rw [transformParamType_option hoption, resolve_of_option hoption]
      dsimp only
      change (∃ given, _ ∧ Accepts (.option _) given) ↔ _
      simp only [accepts_option_iff, exists_eq_right]
      cases hinto : inner.extractImplIntoType with
      | some into =>
          obtain ⟨bounds, rfl, -⟩ := exists_of_extractImplIntoType hinto
          have hneeds : m.needsTransformation needsDecoration (implTrait bounds) = true := by
            rw [needsTransformation, hinto]
            rfl
          rw [if_pos hneeds, hasType_map_var_iff, transformParamType_base rfl, hinto,
            Option.getD_some, or_iff_left fun h => Bool.false_ne_true h.1]
          simpa only [exists_eq_right'] using into_fits_iff (· = ·) (fun _ => rfl) hinto
      | none =>
          have hslice : ¬m.IntoSlice (· = ·) inner := by
            rintro ⟨into, elem, h, -⟩
            rw [hinto] at h
            cases h
          change HasType _ (if _ then m.optionCall needsDecoration inner else .var) _ ↔ _
          by_cases hneeds : m.needsTransformation needsDecoration inner = true
          · rw [if_pos hneeds]
            cases hinner : inner.extractOptionType with
            | none => exact iff_of_true (option_base_fits hinner hinto hneeds) (by simp [hslice])
            | some inner' =>
                exact iff_of_false (option_option_fails hinner hneeds) (by simp [hneeds])
          · rw [if_neg hneeds, hasType_var_iff, RustType.option.injEq, transformParamType_same_iff]
            cases hinner : inner.extractOptionType with
            | none =>
                rw [innermost_base hinner]
                simp [hneeds, hslice]
            | some inner' => simp [hneeds, hslice]

end ParamContext

/-! ### Methods -/

/-- A parameter with the type it has in the signature. -/
structure TypedParameter extends DmlParameter where
  type : SynType

namespace ParamContext

variable (m : ParamContext) (isDataModification : Bool)

def shouldTransform (p : TypedParameter) : Bool :=
  isDataModification && !p.isPool && !p.isDynamicParam

/-- The parameters of the `_query` method. -/
def generateQueryMethodParams (parameters : List TypedParameter) : List (List Char × SynType) :=
  parameters.map fun p =>
    (p.name, m.transformParamType (shouldTransform isDataModification p) p.type)

/-- The arguments the public method calls it with. -/
def generateAllParamNames (parameters : List TypedParameter) : List (List Char × CallExpr) :=
  parameters.map fun p =>
    (p.name, m.transformParamCall (shouldTransform isDataModification p) p.type)

/-- Each argument is over the parameter of the same place and accepted there. -/
def CallTypechecks (parameters : List TypedParameter) : Prop :=
  ∀ (i : ℕ) (p : TypedParameter) (arg : List Char × CallExpr) (param : List Char × SynType),
    parameters[i]? = some p →
    (m.generateAllParamNames isDataModification parameters)[i]? = some arg →
    (m.generateQueryMethodParams isDataModification parameters)[i]? = some param →
      arg.1 = p.name ∧ param.1 = p.name ∧
        ∃ given, HasType p.type.resolve arg.2 given ∧ Accepts param.2.resolve given

/-- The generated call has the types of the generated signature exactly when
no parameter is mismatched. -/
theorem call_typechecks_iff (parameters : List TypedParameter) :
    m.CallTypechecks isDataModification parameters ↔
      ∀ p ∈ parameters, ¬m.Mismatched (shouldTransform isDataModification p) p.type := by
  constructor
  · intro h p hp hmismatched
    obtain ⟨i, hi⟩ := List.mem_iff_getElem?.mp hp
    obtain ⟨-, -, hfits⟩ := h i p _ _ hi (by rw [generateAllParamNames, List.getElem?_map, hi]; rfl)
      (by rw [generateQueryMethodParams, List.getElem?_map, hi]; rfl)
    exact (m.call_fits_iff _ p.type).mp hfits hmismatched
  · intro h i p arg param hi harg hparam
    rw [generateAllParamNames, List.getElem?_map, hi] at harg
    rw [generateQueryMethodParams, List.getElem?_map, hi] at hparam
    cases harg
    cases hparam
    exact ⟨rfl, rfl, (m.call_fits_iff _ p.type).mpr (h p (List.mem_of_getElem? hi))⟩

end ParamContext

end SqlxData.Macros
