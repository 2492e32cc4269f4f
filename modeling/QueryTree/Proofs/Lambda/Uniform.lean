import QueryTree.Proofs.Lambda.Akin

namespace QueryTree

-- A call that gives a value of the form of `x`, if it gives anything.
def GivesAkin (x : Value) (call : Except EvalError (Option Operand)) : Prop :=
  ∀ a, call = .ok (some a) → ∃ v, a = .value v ∧ v.Akin x

variable {x : Value}

theorem HostFunction.akin_of_gives {f g : HostFunction} (hf : ∀ args, GivesAkin x (f.run args))
    (hg : ∀ args, GivesAkin x (g.run args)) (hparams : f.params = g.params)
    (hvariadic : f.variadic = g.variadic) (hresults : f.results = g.results) : f.Akin g where
  params := hparams
  variadic := hvariadic
  results := hresults
  run := by
    intro args args' a b _ ha hb
    obtain ⟨v, rfl, hv⟩ := hf args a ha
    obtain ⟨w, rfl, hw⟩ := hg args' b hb
    exact .value (hv.trans hw.symm)

theorem HostFunction.self_akin (x : Value) {f : HostFunction}
    (h : ∀ args, GivesAkin x (f.run args)) : f.Akin f :=
  akin_of_gives h h rfl rfl rfl

theorem Method.isUniform_of_gives (x : Value) {m : Method}
    (h : ∀ v args, GivesAkin x (m.run v args)) : m.IsUniform :=
  fun v w _ => HostFunction.akin_of_gives (h v) (h w) rfl rfl rfl

-- The types that a method announces for its results play no part.
theorem Method.IsUniform.announcing {m : Method} (h : m.IsUniform) (results : List Ty) :
    Method.IsUniform { m with results } :=
  fun v w hvw =>
    { params := (h v w hvw).params, variadic := rfl, results := rfl, run := (h v w hvw).run }

namespace Lambda

theorem gives_result {v : Value} (h : v.Akin x) : GivesAkin x (result v) := by
  intro a ha
  cases ha
  exact ⟨v, rfl, h⟩

theorem gives_error {e : EvalError} : GivesAkin x (.error e) := by
  intro a ha
  cases ha

theorem text_akin (s t : String) : (Value.text s).Akin (.text t) := .simple rfl rfl rfl

theorem bool_akin (b c : Bool) : (Value.bool b).Akin (.bool c) := .simple rfl rfl rfl

theorem int_akin (k : IntKind) (m n : Int) : (Value.int k m).Akin (.int k n) := .simple rfl rfl rfl

theorem float_akin (a b : Binary) : (Value.float64 a).Akin (.float64 b) := .simple rfl rfl rfl

theorem time_akin (t u : Time) : (Value.time t).Akin (.time u) := .simple rfl rfl rfl

theorem ofOctets_akin (bs : List UInt8) : (Value.ofOctets bs).Akin (.text "") :=
  .simple (Value.ofOctets_form bs).1 rfl (Value.ofOctets_form bs).2

section Functions

theorem textFunction_akin {f : String → Value} (h : ∀ s, (f s).Akin x) :
    (textFunction f).Akin (textFunction f) := by
  refine HostFunction.self_akin x fun args => ?_
  simp only [textFunction]
  split
  · exact gives_result (h _)
  · exact gives_error

theorem textTest_akin {out : Ty} {f : List UInt8 → List UInt8 → Value}
    (h : ∀ s t, (f s t).Akin x) : (textTest out f).Akin (textTest out f) := by
  refine HostFunction.self_akin x fun args => ?_
  simp only [textTest]
  split
  · exact gives_result (h _ _)
  · exact gives_error

theorem floatFunction_akin (f : Binary → Binary) : (floatFunction f).Akin (floatFunction f) := by
  refine HostFunction.self_akin (.float64 .zero) fun args => ?_
  simp only [floatFunction]
  split
  · exact gives_result (float_akin _ .zero)
  · exact gives_error

theorem floatFunction2_akin (f : Binary → Binary → Binary) :
    (floatFunction2 f).Akin (floatFunction2 f) := by
  refine HostFunction.self_akin (.float64 .zero) fun args => ?_
  simp only [floatFunction2]
  split
  · exact gives_result (float_akin _ .zero)
  · exact gives_error

theorem gives_repeatText (s : Value) (n : Int) : GivesAkin (.text "") (repeatText s n) := by
  unfold repeatText
  dsimp only
  split
  · exact gives_error
  split
  · exact gives_error
  split
  · exact gives_error
  split
  · exact gives_result (.refl _)
  · exact gives_result (ofOctets_akin _)

theorem functions_akin (clock : Time) : ∀ p ∈ functions clock, p.2.Akin p.2 := by
  simp only [functions, List.forall_mem_cons, List.not_mem_nil, false_implies, implies_true,
    and_true]
  refine ⟨textFunction_akin fun _ => text_akin _ "", textFunction_akin fun _ => text_akin _ "",
    textFunction_akin fun _ => text_akin _ "", textTest_akin fun _ _ => bool_akin _ true,
    textTest_akin fun _ _ => bool_akin _ true, textTest_akin fun _ _ => bool_akin _ true,
    textTest_akin fun _ _ => int_akin .int _ 0, HostFunction.self_akin (.text "") ?repeated,
    HostFunction.self_akin (.text "") ?joined, HostFunction.self_akin (.text "") ?itoa,
    HostFunction.self_akin (.text "") ?sprintf, HostFunction.self_akin (.text "") ?sprint,
    HostFunction.self_akin (.time default) ?now, HostFunction.self_akin (.time default) ?unix,
    floatFunction_akin _, floatFunction_akin _, floatFunction_akin _, floatFunction_akin _,
    floatFunction2_akin _, floatFunction2_akin _⟩
  case repeated =>
    intro args
    dsimp only
    split
    · exact gives_repeatText _ _
    · exact gives_error
  case joined =>
    intro args
    dsimp only
    split
    · exact gives_result (ofOctets_akin _)
    · exact gives_error
  case itoa | sprintf =>
    intro args
    dsimp only
    split
    · exact gives_result (text_akin _ "")
    · exact gives_error
  case sprint => exact fun _ => gives_result (text_akin _ "")
  case now => exact fun _ => gives_result (time_akin _ default)
  case unix =>
    intro args
    dsimp only
    split
    · exact gives_result (time_akin _ default)
    · exact gives_error

end Functions

section Methods

theorem timeMethod_uniform {name : String} {out : Ty} {f : Time → Value} (h : ∀ t, (f t).Akin x) :
    (timeMethod name out f).IsUniform := by
  refine Method.isUniform_of_gives x fun v args => ?_
  simp only [timeMethod]
  split
  · exact gives_result (h _)
  · exact gives_error

theorem timeMethod2_uniform {name : String} {out : Ty} {f : Time → Time → Value}
    (h : ∀ t u, (f t u).Akin x) : (timeMethod2 name out f).IsUniform := by
  refine Method.isUniform_of_gives x fun v args => ?_
  simp only [timeMethod2]
  split
  · exact gives_result (h _ _)
  · exact gives_error

theorem spanMethod_uniform {name : String} {out : Ty} {f : Int → Value} (h : ∀ n, (f n).Akin x) :
    (spanMethod name out f).IsUniform := by
  refine Method.isUniform_of_gives x fun v args => ?_
  simp only [spanMethod]
  split
  · exact gives_result (h _)
  · exact gives_error

theorem ownTextMethod_uniform (type : String) : (ownTextMethod type).IsUniform :=
  Method.isUniform_of_gives (.text "") fun _ _ => gives_result (text_akin _ "")

theorem numberMethod_uniform {name reader : String} {out : Ty}
    {read : List Char → Except String Value} (h : ∀ cs v, read cs = .ok v → v.Akin x) :
    (numberMethod name out reader read).IsUniform := by
  refine Method.isUniform_of_gives x fun v args => ?_
  simp only [numberMethod]
  split
  · split
    case h_1 hv => exact gives_result (h _ _ hv)
    case h_2 => exact gives_error
  · exact gives_error

theorem uuidMethod_uniform (name type : String) (f : Uuid → Nat) :
    (uuidMethod name type f).IsUniform := by
  refine Method.isUniform_of_gives (.named type (.int .uint8 0)) fun v args => ?_
  simp only [uuidMethod]
  split
  · exact gives_result (.named type (int_akin .uint8 _ 0))
  · exact gives_error

theorem timeMethods_uniform : ∀ m ∈ timeMethods, m.IsUniform := by
  have hint : ∀ {name : String} {f : Time → Int},
      (timeMethod name int fun t => .int .int (f t)).IsUniform :=
    timeMethod_uniform fun _ => int_akin .int _ 0
  have hlong : ∀ {name : String} {f : Time → Int},
      (timeMethod name int64 fun t => .int .int64 (f t)).IsUniform :=
    timeMethod_uniform fun _ => int_akin .int64 _ 0
  simp only [timeMethods, List.forall_mem_cons, List.not_mem_nil, false_implies, implies_true,
    and_true]
  refine ⟨hint, timeMethod_uniform fun _ => .named _ (int_akin .int _ 0), hint, hint, hint, hint,
    hint, hint, timeMethod_uniform fun _ => .named _ (int_akin .int _ 0), hlong, hlong, hlong,
    hlong, timeMethod_uniform fun _ => time_akin _ default,
    timeMethod_uniform fun _ => time_akin _ default, timeMethod_uniform fun _ => bool_akin _ true,
    timeMethod_uniform fun _ => text_akin _ "", timeMethod_uniform fun _ => text_akin _ "",
    timeMethod2_uniform fun _ _ => bool_akin _ true,
    timeMethod2_uniform fun _ _ => bool_akin _ true,
    timeMethod2_uniform fun _ _ => bool_akin _ true,
    timeMethod2_uniform fun _ _ => int_akin .int _ 0,
    timeMethod2_uniform fun _ _ => .named _ (int_akin .int64 _ 0),
    hint.announcing _, timeMethod_uniform fun _ => bool_akin _ true, hint.announcing _,
    hint.announcing _, (timeMethod_uniform fun _ => text_akin _ "").announcing _,
    Method.isUniform_of_gives (.text "") ?format, Method.isUniform_of_gives (.time default) ?add,
    Method.isUniform_of_gives (.time default) ?addDate,
    Method.isUniform_of_gives (.time default) ?truncate,
    Method.isUniform_of_gives (.time default) ?round⟩
  case format =>
    intro v args
    dsimp only
    split
    · exact gives_result (text_akin _ "")
    · exact gives_error
  case add | addDate | truncate | round =>
    intro v args
    dsimp only
    split
    · exact gives_result (time_akin _ default)
    · exact gives_error

theorem spanMethods_uniform : ∀ m ∈ spanMethods, m.IsUniform := by
  simp only [spanMethods, List.forall_mem_cons, List.not_mem_nil, false_implies, implies_true,
    and_true]
  exact ⟨spanMethod_uniform fun _ => float_akin _ .zero,
    spanMethod_uniform fun _ => float_akin _ .zero, spanMethod_uniform fun _ => float_akin _ .zero,
    spanMethod_uniform fun _ => int_akin .int64 _ 0,
    spanMethod_uniform fun _ => int_akin .int64 _ 0,
    spanMethod_uniform fun _ => int_akin .int64 _ 0,
    spanMethod_uniform fun _ => .named _ (int_akin .int64 _ 0), ownTextMethod_uniform _,
    ownTextMethod_uniform _, ownTextMethod_uniform _⟩

theorem readInt64_akin (cs : List Char) (v : Value) (h : readInt64 cs = .ok v) :
    v.Akin (.int64 0) := by
  unfold readInt64 at h
  split at h
  · cases h
  · split at h <;> cases h
    exact int_akin .int64 _ 0

theorem readFloat64_akin (cs : List Char) (v : Value) (h : readFloat64 cs = .ok v) :
    v.Akin (.float64 .zero) := by
  unfold readFloat64 at h
  split at h
  · cases h
  · split at h <;> cases h
    exact float_akin _ .zero

theorem methods_uniform : ∀ m ∈ methods, m.IsUniform := by
  simp only [methods, List.forall_mem_append, List.forall_mem_cons, List.not_mem_nil,
    false_implies, implies_true, and_true]
  exact ⟨⟨timeMethods_uniform, spanMethods_uniform⟩, ownTextMethod_uniform _,
    ownTextMethod_uniform _,
    Method.isUniform_of_gives (.text "") fun _ _ => gives_result (text_akin _ ""),
    uuidMethod_uniform _ _ _, uuidMethod_uniform _ _ _, ownTextMethod_uniform _,
    ownTextMethod_uniform _, numberMethod_uniform readInt64_akin,
    numberMethod_uniform readFloat64_akin⟩

end Methods

end Lambda
end QueryTree
