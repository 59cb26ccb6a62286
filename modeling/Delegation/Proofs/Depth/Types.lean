import Delegation.Proofs.Depth.Order

namespace Delegation.Reader

variable {g g' : Rules}

@[gcongr] theorem constant_mono (h : g.Below g') : constant g ≤ constant g' := by
  unfold constant
  gcongr

@[gcongr] theorem argument_mono (h : g.Below g') : argument g ≤ argument g' := by
  unfold argument
  dsimp only
  gcongr

@[gcongr] theorem angledArgs_mono (h : g.Below g') (name : Ident) :
    angledArgs g name ≤ angledArgs g' name := by
  unfold angledArgs
  dsimp only
  gcongr

@[gcongr] theorem segment_mono (h : g.Below g') (expression : Bool) :
    segment g expression ≤ segment g' expression := by
  unfold segment
  dsimp only
  gcongr

@[gcongr] theorem moreSegments_mono (h : g.Below g') (expression : Bool) :
    moreSegments g expression ≤ moreSegments g' expression := by
  unfold moreSegments
  gcongr

@[gcongr] theorem path_mono (h : g.Below g') (expression : Bool) :
    path g expression ≤ path g' expression := by
  unfold path
  gcongr

@[gcongr] theorem members_mono (h : g.Below g') (expression : Bool) :
    members g expression ≤ members g' expression := by
  unfold members
  gcongr

@[gcongr] theorem qpath_mono (h : g.Below g') (expression : Bool) :
    qpath g expression ≤ qpath g' expression := by
  unfold qpath
  dsimp only
  gcongr

@[gcongr] theorem attrValue_mono (h : g.Below g') : attrValue g ≤ attrValue g' := by
  intro s
  unfold attrValue
  split
  next => exact .inl rfl
  next =>
    split
    next => exact .inl rfl
    next => exact Rules.anyExpr_mono h s

@[gcongr] theorem attrArgs_mono (h : g.Below g') : attrArgs g ≤ attrArgs g' := by
  unfold attrArgs
  gcongr

@[gcongr] theorem attrBody_mono (h : g.Below g') (pound : Span) (inner : Option Span) :
    attrBody g pound inner ≤ attrBody g' pound inner := by
  unfold attrBody
  gcongr

@[gcongr] theorem outerAttr_mono (h : g.Below g') : outerAttr g ≤ outerAttr g' := by
  unfold outerAttr
  gcongr

@[gcongr] theorem innerAttr_mono (h : g.Below g') : innerAttr g ≤ innerAttr g' := by
  unfold innerAttr
  gcongr

@[gcongr] theorem outerAttrs_mono (h : g.Below g') : outerAttrs g ≤ outerAttrs g' := by
  unfold outerAttrs
  gcongr

@[gcongr] theorem innerAttrs_mono (h : g.Below g') : innerAttrs g ≤ innerAttrs g' := by
  unfold innerAttrs
  gcongr

@[gcongr] theorem outerAttrTokens_mono (h : g.Below g') :
    outerAttrTokens g ≤ outerAttrTokens g' := by
  unfold outerAttrTokens
  gcongr

@[gcongr] theorem innerAttrTokens_mono (h : g.Below g') :
    innerAttrTokens g ≤ innerAttrTokens g' := by
  unfold innerAttrTokens
  gcongr

@[gcongr] theorem boundTokens_mono (h : g.Below g') : boundTokens g ≤ boundTokens g' := by
  unfold boundTokens
  gcongr

@[gcongr] theorem typeParam_mono (h : g.Below g') (attrs : List Tree) :
    typeParam g attrs ≤ typeParam g' attrs := by
  unfold typeParam
  simp only [sequence]
  gcongr

@[gcongr] theorem constParam_mono (h : g.Below g') (attrs : List Tree) :
    constParam g attrs ≤ constParam g' attrs := by
  unfold constParam
  simp only [sequence]
  gcongr

@[gcongr] theorem genericParam_mono (h : g.Below g') : genericParam g ≤ genericParam g' := by
  unfold genericParam
  gcongr

@[gcongr] theorem generics_mono (h : g.Below g') : generics g ≤ generics g' := by
  unfold generics
  gcongr

@[gcongr] theorem boundParam_mono (h : g.Below g') : boundParam g ≤ boundParam g' := by
  unfold boundParam
  gcongr

@[gcongr] theorem binder_mono (h : g.Below g') : binder g ≤ binder g' := by
  unfold binder
  gcongr

@[gcongr] theorem binderWhen_mono (h : g.Below g') : binderWhen g ≤ binderWhen g' := by
  unfold binderWhen
  gcongr

@[gcongr] theorem predicate_mono (h : g.Below g') : predicate g ≤ predicate g' := by
  unfold predicate
  simp only [sequence]
  gcongr

@[gcongr] theorem whereClause_mono (h : g.Below g') : whereClause g ≤ whereClause g' := by
  unfold whereClause
  dsimp only
  gcongr

@[gcongr] theorem returnType_mono (h : g.Below g') (plus : Bool) :
    returnType g plus ≤ returnType g' plus := by
  unfold returnType
  gcongr

@[gcongr] theorem traitPath_mono (h : g.Below g') : traitPath g ≤ traitPath g' := by
  unfold traitPath
  dsimp only
  gcongr

@[gcongr] theorem traitBound_mono (h : g.Below g') (const : Bool) :
    traitBound g const ≤ traitBound g' const := by
  unfold traitBound
  dsimp only
  gcongr

@[gcongr] theorem boundRule_mono (h : g.Below g') (captures const : Bool) :
    boundRule g captures const ≤ boundRule g' captures const := by
  unfold boundRule
  dsimp only
  gcongr

@[gcongr] theorem bounds_mono (h : g.Below g') (plus captures const : Bool) :
    bounds g plus captures const ≤ bounds g' plus captures const := by
  unfold bounds
  dsimp only
  gcongr

@[gcongr] theorem traitBounds_mono (h : g.Below g') (start : Span) (plus captures const : Bool)
    (complaint : String) :
    traitBounds g start plus captures const complaint ≤
      traitBounds g' start plus captures const complaint := by
  unfold traitBounds
  gcongr

@[gcongr] theorem traitObject_mono (h : g.Below g') (plus : Bool) :
    traitObject g plus ≤ traitObject g' plus := by
  unfold traitObject
  gcongr

@[gcongr] theorem plusBounds_mono (h : g.Below g') : plusBounds g ≤ plusBounds g' := by
  unfold plusBounds
  gcongr

@[gcongr] theorem parenType_mono (h : g.Below g') : parenType g ≤ parenType g' := by
  unfold parenType
  gcongr

@[gcongr] theorem parenthesized_mono (h : g.Below g') (plus : Bool) :
    parenthesized g plus ≤ parenthesized g' plus := by
  unfold parenthesized
  gcongr with content
  obtain ⟨content, span⟩ := content
  cases content with
  | tuple | object => exact le_refl _
  | maybe tokens =>
    dsimp only
    gcongr
  | single first =>
    dsimp only
    gcongr
    split
    next => gcongr
    next => exact le_refl _

@[gcongr] theorem withArgs_mono (h : g.Below g') (segments : List Segment) :
    withArgs g segments ≤ withArgs g' segments := by
  unfold withArgs
  split
  next => gcongr
  next => exact le_refl _

@[gcongr] theorem groupType_mono (h : g.Below g') (generic : Bool) :
    groupType g generic ≤ groupType g' generic := by
  unfold groupType
  gcongr with content
  obtain ⟨elem, span⟩ := content
  dsimp only
  gcongr
  · split <;> gcongr
  · split <;> gcongr

@[gcongr] theorem functionTypeArg_mono (h : g.Below g') (allowSelf : Bool) :
    functionTypeArg g allowSelf ≤ functionTypeArg g' allowSelf := by
  unfold functionTypeArg
  dsimp only
  gcongr

@[gcongr] theorem functionTypeArgs_mono (h : g.Below g') :
    functionTypeArgs g ≤ functionTypeArgs g' := by
  unfold functionTypeArgs
  gcongr

@[gcongr] theorem functionType_mono (h : g.Below g') : functionType g ≤ functionType g' := by
  unfold functionType
  simp only [sequence]
  gcongr

@[gcongr] theorem pathType_mono (h : g.Below g') (lifetimes : List Tree) (plus : Bool) :
    pathType g lifetimes plus ≤ pathType g' lifetimes plus := by
  unfold pathType
  gcongr with p
  cases p with
  | qualified => exact le_refl _
  | plain p =>
    dsimp only
    gcongr

@[gcongr] theorem arrayType_mono (h : g.Below g') : arrayType g ≤ arrayType g' := by
  unfold arrayType
  gcongr

@[gcongr] theorem pointerType_mono (h : g.Below g') : pointerType g ≤ pointerType g' := by
  unfold pointerType
  gcongr

@[gcongr] theorem referenceType_mono (h : g.Below g') : referenceType g ≤ referenceType g' := by
  unfold referenceType
  dsimp only
  gcongr

@[gcongr] theorem hiddenType_mono (h : g.Below g') (plus : Bool) :
    hiddenType g plus ≤ hiddenType g' plus := by
  unfold hiddenType
  gcongr

@[gcongr] theorem typeRule_mono (h : g.Below g') (plus generic : Bool) :
    typeRule g plus generic ≤ typeRule g' plus generic := by
  unfold typeRule
  gcongr

@[gcongr] theorem namedFieldWith_mono (h : g.Below g') {fields fields' : Reader (List Tree)}
    (hfields : fields ≤ fields') : namedFieldWith g fields ≤ namedFieldWith g' fields' := by
  unfold namedFieldWith
  simp only [sequence]
  gcongr

@[gcongr] theorem nestedFields_mono (h : g.Below g') (fuel : Nat) :
    nestedFields g fuel ≤ nestedFields g' fuel := by
  induction fuel with
  | zero => exact le_refl _
  | succ fuel ih =>
    unfold nestedFields
    gcongr

@[gcongr] theorem namedField_mono (h : g.Below g') : namedField g ≤ namedField g' := by
  intro s
  have hfields := nestedFields_mono h (Trees.weight s.rest)
  exact namedFieldWith_mono h hfields s

@[gcongr] theorem tupleField_mono (h : g.Below g') : tupleField g ≤ tupleField g' := by
  unfold tupleField
  gcongr

@[gcongr] theorem namedFields_mono (h : g.Below g') : namedFields g ≤ namedFields g' := by
  unfold namedFields
  gcongr

@[gcongr] theorem tupleFields_mono (h : g.Below g') : tupleFields g ≤ tupleFields g' := by
  unfold tupleFields
  gcongr

@[gcongr] theorem structBody_mono (h : g.Below g') : structBody g ≤ structBody g' := by
  unfold structBody
  dsimp only
  gcongr

@[gcongr] theorem structRest_mono (h : g.Below g') (attrs : List Attr) (vis : Visibility) :
    structRest g attrs vis ≤ structRest g' attrs vis := by
  unfold structRest
  gcongr

@[gcongr] theorem variant_mono (h : g.Below g') : variant g ≤ variant g' := by
  unfold variant
  simp only [sequence]
  gcongr

@[gcongr] theorem enumRest_mono (h : g.Below g') : enumRest g ≤ enumRest g' := by
  unfold enumRest
  gcongr

@[gcongr] theorem unionRest_mono (h : g.Below g') : unionRest g ≤ unionRest g' := by
  unfold unionRest
  gcongr

end Delegation.Reader
