import DeclCatalog.Proofs.DecoratorSelection
import DeclCatalog.Proofs.ReportRules

/-!
# The fields of a decorated class

What a decorator says of a class stands in an object with about thirty known keys, which may repeat
and come in any order among others. Each field is read by one key and one rule. Here the record is
written as a function of the last value of every key, and the diagnostics as what the rules say of
these values, so nothing else of the object can have a part in either.

- `lastOf?`, `lastValue?_eq`: the value of the last pair with a key.
- `textAt?`, `textsAt?`, `flagAt?`, `memberAt?`: what a value gives, by its shape.
- `directiveBy`, `componentBy`, `injectableBy`, `moduleBy`, `pipeBy`, `recordBy`: the record of a
  class, by the values of the keys.
- `KeyRule`, `Role.keyRules`: how each key of a role is read, in the order of reading.
- `recordBy_congr`: the record depends on the values of the role's keys only.
- `value_recordWith`, `log_recordWith`: what is read, and what is said of it.
- `decorator_fields_by_last_pair`: **the fields depend on the last pair of their key alone**, and so
  do the reports of unset fields.
-/

namespace DeclCatalog

open Logged

/-! ## The last pair of a key -/

/-- The value of the last pair with a key. -/
def lastOf? (pairs : List (String × Node)) (key : String) : Option Node :=
  ((pairs.filter fun pair => pair.1 = key).getLast?).map Prod.snd

theorem lookup_eq_find? (pairs : List (String × Node)) (key : String) :
    pairs.lookup key = (pairs.find? fun pair => pair.1 = key).map Prod.snd := by
  induction pairs with
  | nil => rfl
  | cons pair pairs ih =>
    rw [List.lookup_cons]
    by_cases hsame : pair.1 = key
    · rw [List.find?_cons_of_pos (by simpa using hsame), hsame, beq_self_eq_true]
      rfl
    · rw [List.find?_cons_of_neg (by simpa using hsame), beq_eq_false_iff_ne.2 (Ne.symm hsame), ih]

theorem lastValue?_eq (pairs : List (String × Node)) (key : String) :
    lastValue? pairs key = lastOf? pairs key := by
  rw [lastValue?, lookup_eq_find?, find?_reverse_eq, lastOf?]

/-! ## Shapes of values -/

section

variable (src : Source)

/-- A string or template literal gives its text without the quotes. -/
def textAt? (n : Node) : Option String :=
  if n.kind = "string" ∨ n.kind = "template_string" then some (Text.stripQuotes (src.text n))
  else none

/-- An array gives the texts of its elements, each without quotes around it. -/
def textsAt? (n : Node) : Option (List String) :=
  if n.kind = "array" then
    some (n.namedChildren.map fun element => Text.stripQuotes (src.text element))
  else none

/-- The words `true` and `false` give a truth value. -/
def flagAt? (n : Node) : Option Bool :=
  if n.kind = "true" then some true
  else if n.kind = "false" then some false
  else none

/-- A member of something with a fixed name gives what its own name stands for. -/
def memberAt? {α : Type} (owner : String) (named? : String → Option α) (n : Node) : Option α :=
  if n.kind = "member_expression" ∧ src.fieldText? n "object" = some owner then
    (src.fieldText? n "property").bind named?
  else none

theorem read?_stringShape : (stringShape src).read? = textAt? src := by
  funext n
  unfold stringShape textAt?
  by_cases hstring : n.kind = "string"
  · simp [hstring]
  by_cases htemplate : n.kind = "template_string"
  · simp [htemplate]
  · simp [hstring, htemplate]

theorem read?_stringsShape : (stringsShape src).read? = textsAt? src := by
  funext n
  simp [stringsShape, textsAt?]

theorem read?_booleanShape : booleanShape.read? = flagAt? := by
  funext n
  unfold booleanShape flagAt?
  by_cases htrue : n.kind = "true"
  · simp [htrue]
  by_cases hfalse : n.kind = "false"
  · simp [hfalse]
  · simp [htrue, hfalse]

theorem read?_memberShape {α : Type} (owner : String) (named? : String → Option α) :
    (memberShape src owner named?).read? = memberAt? src owner named? := by
  funext n
  unfold memberShape memberAt?
  dsimp only
  by_cases hkind : n.kind = "member_expression"
  · cases src.fieldText? n "object" with
    | none => simp [hkind]
    | some object =>
      by_cases howner : object = owner
      · cases src.fieldText? n "property" <;> simp [hkind, howner]
      · cases src.fieldText? n "property" <;> simp [hkind, howner]
  · simp [hkind]

end

/-! ## The record by the values of its keys -/

section

variable (src : Source) (limit : Nat) (value? : String → Option Node)

/-- The value of a key that takes any value. -/
def termBy (key : String) : Option ValueTerm :=
  (value? key).map fun value => (valueOf src limit value).value

/-- What a directive or component is given as a directive. -/
def directiveBy (n : Node) : DirectiveInfo where
  selector := (value? "selector").bind (textAt? src)
  host := termBy src limit value? "host"
  inputs := (value? "inputs").bind (textsAt? src)
  outputs := (value? "outputs").bind (textsAt? src)
  providers := termBy src limit value? "providers"
  queries := termBy src limit value? "queries"
  exportAs := (value? "exportAs").bind (textAt? src)
  standalone := (value? "standalone").bind flagAt?
  constructorAttributes := (constructorParamNodes src n).filterMap (attributeParameter? src)
  constructorReferences := (constructorParamNodes src n).filterMap (referenceParameter? src)

/-- What a component is given. -/
def componentBy (n : Node) : ComponentInfo where
  directive := directiveBy src limit value? n
  changeDetection := (value? "changeDetection").bind
    (memberAt? src "ChangeDetectionStrategy" ChangeDetection.ofName?)
  encapsulation := (value? "encapsulation").bind
    (memberAt? src "ViewEncapsulation" Encapsulation.ofName?)
  moduleId := (value? "moduleId").bind (memberAt? src "module" some)
  preserveWhitespaces := (value? "preserveWhitespaces").bind flagAt?
  styles := (value? "styles").bind (textsAt? src)
  styleUrls := (value? "styleUrls").bind (textsAt? src)
  template := (value? "template").bind (textAt? src)
  templateUrl := (value? "templateUrl").bind (textAt? src)
  viewProviders := termBy src limit value? "viewProviders"
  imports := termBy src limit value? "imports"
  animations := termBy src limit value? "animations"

/-- What an injectable is given. -/
def injectableBy : InjectableInfo where
  providedIn := termBy src limit value? "providedIn"

/-- What a module is given. -/
def moduleBy : ModuleInfo where
  id := (value? "id").bind (textAt? src)
  bootstrap := termBy src limit value? "bootstrap"
  declarations := termBy src limit value? "declarations"
  entryComponents := termBy src limit value? "entryComponents"
  exports := termBy src limit value? "exports"
  imports := termBy src limit value? "imports"
  providers := termBy src limit value? "providers"
  schemas := termBy src limit value? "schemas"

/-- What a pipe is given. -/
def pipeBy : PipeInfo where
  name := (value? "name").bind (textAt? src)
  pure := (value? "pure").bind flagAt?
  standalone := (value? "standalone").bind flagAt?

/-- The record of a class with a role, by its class part and the values of the role's keys. -/
def recordBy (n : Node) (base : ClassRecord) : Role → Record
  | .component => .component { base, info := componentBy src limit value? n }
  | .directive => .directive { base, info := directiveBy src limit value? n }
  | .injectable => .injectable { base, info := injectableBy src limit value? }
  | .module => .module { base, info := moduleBy src limit value? }
  | .pipe => .pipe { base, info := pipeBy src value? }

end

/-! ## The rules of the keys -/

/-- How the value of a key is read: it has to have a shape, or it may be any value. -/
inductive KeyRule where
  | shaped (key expected : String) (fits : Node → Bool)
  | free (key : String)

namespace KeyRule

/-- The key that a rule is for. -/
def key : KeyRule → String
  | .shaped key _ _ => key
  | .free key => key

/-- That a field is left unset, when its value does not have the shape. -/
def unset? (src : Source) (value : Node) : KeyRule → Option Diagnostic
  | .shaped key expected fits =>
    if fits value then none
    else some (Diagnostic.ofRule .unsetDecoratorField (src.location value)
      ("`" ++ key ++ "` expects " ++ expected ++ ", found `" ++ value.kind ++ "`"))
  | .free _ => none

/-- What is said of a value when it is read. -/
def said (src : Source) (limit : Nat) (value : Node) : KeyRule → List Diagnostic
  | .shaped key expected fits => ((shaped key expected fits).unset? src value).toList
  | .free _ => (valueOf src limit value).log

/-- What is said of the value of a rule's key, if it has one. -/
def saidOf (src : Source) (limit : Nat) (value? : String → Option Node) (rule : KeyRule) :
    List Diagnostic :=
  match value? rule.key with
  | some value => rule.said src limit value
  | none => []

section

variable (src : Source)

/-- A key whose value is a string. -/
def text (key : String) : KeyRule :=
  .shaped key "a string literal" fun n => (textAt? src n).isSome

/-- A key whose value is a list of strings. -/
def texts (key : String) : KeyRule :=
  .shaped key "an array literal" fun n => (textsAt? src n).isSome

/-- A key whose value is a truth value. -/
def flag (key : String) : KeyRule :=
  .shaped key "`true` or `false`" fun n => (flagAt? n).isSome

/-- A key whose value is a member of something with a fixed name. -/
def member {α : Type} (key owner : String) (named? : String → Option α) : KeyRule :=
  .shaped key ("`" ++ owner ++ ".<member>`") fun n => (memberAt? src owner named? n).isSome

end

end KeyRule

open KeyRule

/-- The keys of a directive, in the order of reading. -/
def directiveRules (src : Source) : List KeyRule :=
  [text src "selector", .free "host", texts src "inputs", texts src "outputs", .free "providers",
   .free "queries", text src "exportAs", flag "standalone"]

/-- The keys that a component has beyond those of a directive. -/
def componentRules (src : Source) : List KeyRule :=
  [member src "changeDetection" "ChangeDetectionStrategy" ChangeDetection.ofName?,
   member src "encapsulation" "ViewEncapsulation" Encapsulation.ofName?,
   member src "moduleId" "module" some, flag "preserveWhitespaces", texts src "styles",
   texts src "styleUrls", text src "template", text src "templateUrl", .free "viewProviders",
   .free "imports", .free "animations"]

/-- The keys of a role, in the order of reading. -/
def Role.keyRules (src : Source) : Role → List KeyRule
  | .component => directiveRules src ++ componentRules src
  | .directive => directiveRules src
  | .injectable => [.free "providedIn"]
  | .module =>
    [text src "id", .free "bootstrap", .free "declarations", .free "entryComponents",
     .free "exports", .free "imports", .free "providers", .free "schemas"]
  | .pipe => [text src "name", flag "pure", flag "standalone"]

/-- Every key of a role is read by one rule. -/
theorem Role.nodup_keys (src : Source) (role : Role) :
    ((role.keyRules src).map KeyRule.key).Nodup := by
  cases role <;>
    simp [keyRules, directiveRules, componentRules, KeyRule.key, text, texts, flag, member]

/-- The record depends on the values of the role's keys, and on those of no other key. -/
theorem recordBy_congr {src : Source} {limit : Nat} {value? other? : String → Option Node}
    {role : Role} (h : ∀ rule ∈ role.keyRules src, value? rule.key = other? rule.key) (n : Node)
    (base : ClassRecord) :
    recordBy src limit value? n base role = recordBy src limit other? n base role := by
  have hdirective (hkeys : ∀ rule ∈ directiveRules src, value? rule.key = other? rule.key) :
      directiveBy src limit value? n = directiveBy src limit other? n := by
    simp only [directiveRules, List.forall_mem_cons, text, texts, flag, KeyRule.key] at hkeys
    simp only [directiveBy, termBy, hkeys]
  cases role with
  | component =>
    obtain ⟨hshared, hown⟩ := List.forall_mem_append.1 h
    simp only [componentRules, List.forall_mem_cons, text, texts, flag, member, KeyRule.key] at hown
    simp only [recordBy, componentBy, termBy, hown, hdirective hshared]
  | directive => rw [recordBy, recordBy, hdirective h]
  | injectable =>
    simp only [Role.keyRules, List.forall_mem_cons, KeyRule.key] at h
    simp only [recordBy, injectableBy, termBy, h]
  | module =>
    simp only [Role.keyRules, List.forall_mem_cons, text, KeyRule.key] at h
    simp only [recordBy, moduleBy, termBy, h]
  | pipe =>
    simp only [Role.keyRules, List.forall_mem_cons, text, flag, KeyRule.key] at h
    simp only [recordBy, pipeBy, h]

/-! ## What is read, and what is said of it -/

section

variable {src : Source} {limit : Nat} {pairs : List (String × Node)}

theorem value_fieldOf {α : Type} (key : String) (shape : ValueShape α) :
    (fieldOf src pairs key shape).value = (lastOf? pairs key).bind shape.read? := by
  unfold fieldOf
  rw [lastValue?_eq]
  cases lastOf? pairs key with
  | none => rfl
  | some value => cases hread : shape.read? value <;> simp [hread]

theorem log_fieldOf {α : Type} (limit : Nat) (key : String) (shape : ValueShape α) :
    (fieldOf src pairs key shape).log =
      saidOf src limit (lastOf? pairs)
        (.shaped key shape.expected fun n => (shape.read? n).isSome) := by
  unfold fieldOf saidOf
  rw [lastValue?_eq]
  show _ = match lastOf? pairs key with | some value => _ | none => _
  cases lastOf? pairs key with
  | none => rfl
  | some value => cases hread : shape.read? value <;> simp [hread, said, unset?, Source.report]

theorem value_termOf (key : String) :
    (termOf src limit pairs key).value = termBy src limit (lastOf? pairs) key := by
  rw [termOf, value_traverse?, lastValue?_eq, termBy]

theorem log_termOf (key : String) :
    (termOf src limit pairs key).log = saidOf src limit (lastOf? pairs) (.free key) := by
  unfold saidOf
  rw [termOf, log_traverse?, lastValue?_eq]
  show _ = match lastOf? pairs key with | some value => _ | none => _
  cases lastOf? pairs key <;> rfl

-- Below, a sequence of readings is opened by rewriting. To see by evaluation that it is opened
-- rightly, every reading would be run again for each one after it.

theorem value_directiveInfo (n : Node) :
    (directiveInfo src limit pairs n).value = directiveBy src limit (lastOf? pairs) n := by
  simp -implicitDefEqProofs only [directiveInfo, value_bind, value_pure, value_fieldOf,
    value_termOf, read?_stringShape, read?_stringsShape, read?_booleanShape]
  rfl

theorem log_directiveInfo (n : Node) :
    (directiveInfo src limit pairs n).log =
      (directiveRules src).flatMap (saidOf src limit (lastOf? pairs)) := by
  simp only [directiveInfo, log_bind, log_pure, log_fieldOf limit, log_termOf,
    read?_stringShape, read?_stringsShape, read?_booleanShape]
  rfl

theorem value_componentInfo (n : Node) :
    (componentInfo src limit pairs n).value = componentBy src limit (lastOf? pairs) n := by
  simp -implicitDefEqProofs only [componentInfo, value_bind, value_pure, value_directiveInfo,
    value_fieldOf, value_termOf, read?_stringShape, read?_stringsShape, read?_booleanShape,
    read?_memberShape]
  rfl

/-- What a class with a role is given is a function of the last values of its keys. -/
theorem value_recordWith (n : Node) (base : ClassRecord) (role : Role) :
    (recordWith src limit n base pairs role).value =
      recordBy src limit (lastOf? pairs) n base role := by
  cases role with
  | component => simp only [recordWith, value_map, value_componentInfo, recordBy]
  | directive => simp only [recordWith, value_map, value_directiveInfo, recordBy]
  | injectable =>
    simp -implicitDefEqProofs only [recordWith, injectableInfo, value_map, value_bind, value_pure,
      value_termOf]
    rfl
  | module =>
    simp -implicitDefEqProofs only [recordWith, moduleInfo, value_map, value_bind, value_pure,
      value_fieldOf, value_termOf, read?_stringShape]
    rfl
  | pipe =>
    simp -implicitDefEqProofs only [recordWith, pipeInfo, value_map, value_bind, value_pure,
      value_fieldOf, read?_stringShape, read?_booleanShape]
    rfl

theorem log_componentInfo (n : Node) :
    (componentInfo src limit pairs n).log =
      (directiveRules src ++ componentRules src).flatMap (saidOf src limit (lastOf? pairs)) := by
  simp only [componentInfo, log_bind, log_pure, log_directiveInfo, log_fieldOf limit, log_termOf,
    read?_stringShape, read?_stringsShape, read?_booleanShape, read?_memberShape,
    List.flatMap_append]
  rfl

/-- What is said of the keys is what their rules say of the last values, rule after rule. -/
theorem log_recordWith (n : Node) (base : ClassRecord) (role : Role) :
    (recordWith src limit n base pairs role).log =
      (role.keyRules src).flatMap (saidOf src limit (lastOf? pairs)) := by
  cases role with
  | component => rw [recordWith, log_map, log_componentInfo, Role.keyRules]
  | directive => rw [recordWith, log_map, log_directiveInfo, Role.keyRules]
  | injectable =>
    simp only [recordWith, injectableInfo, log_map, log_bind, log_pure, log_termOf]
    rfl
  | module =>
    simp only [recordWith, moduleInfo, log_map, log_bind, log_pure, log_fieldOf limit, log_termOf,
      read?_stringShape]
    rfl
  | pipe =>
    simp only [recordWith, pipeInfo, log_map, log_bind, log_pure, log_fieldOf limit,
      read?_stringShape, read?_booleanShape]
    rfl

/-- Of what is said of a value, the reports of unset fields are those of its shape. -/
theorem filter_saidOf (value? : String → Option Node) (rule : KeyRule) :
    ((saidOf src limit value? rule).filter fun d => d.rule = .unsetDecoratorField) =
      ((value? rule.key).bind fun value => rule.unset? src value).toList := by
  unfold saidOf
  cases value? rule.key with
  | none => rfl
  | some value =>
    cases rule with
    | shaped key expected fits =>
      by_cases hfits : fits value = true
      · simp [said, unset?, hfits]
      · simp [said, unset?, hfits, Diagnostic.ofRule]
    | free key =>
      have hrules : Rule.unsetDecoratorField ∉ resolverRules := by decide
      exact (raisesOnly_resolveValue (limit + 1) value).filter_eq_nil hrules

/-- The record of a class with a role is read after its class part and its pairs. -/
theorem collectDecorated_eq (config : Config) (site : Site) (role : Role) :
    collectDecorated src config site role =
      collectClass src config.limits.maxDepth site >>= fun base =>
        configPairs src config.aliases site role >>= fun pairs =>
          recordWith src config.limits.maxDepth site.node base pairs role := by
  cases role <;> rfl

theorem raisesOnly_configPairs (aliases : Aliases) (site : Site) (role : Role) :
    (configPairs src aliases site role).RaisesOnly [.skippedObjectMember] := by
  unfold configPairs
  split
  · intro d hd
    rw [rule_of_mem_log_pairsOf hd]
    exact List.mem_singleton_self _
  · exact raisesOnly_pure

end

/-- **The fields of a decorated class depend on the last pair of their key alone.** The pairs are
those of the object that the decorator of the role is called with, if there is one. The record is a
function of the last values of the role's keys, and of no others: what is read from a key is unset
if there is no pair with the key, or if the last value does not have the shape of the key. What is
said, after what is said of the class and of the members of the object, is what the rules of the
keys say of these values, one rule for each key. So a field that is left unset is reported once for
each key whose last value does not have its shape, and of no other pair. -/
theorem decorator_fields_by_last_pair (src : Source) (config : Config) (site : Site)
    (role : Role) :
    let limit := config.limits.maxDepth
    let base := collectClass src limit site
    let read := match (decoratorOfRole? src config.aliases site role).bind configObject? with
      | some object => objectPairs src object
      | none => pure []
    let last? := fun key => ((read.value.filter fun pair => pair.1 = key).getLast?).map Prod.snd
    let result := collectDecorated src config site role
    result.value = recordBy src limit last? site.node base.value role ∧
    result.log = base.log ++ read.log ++ (role.keyRules src).flatMap (saidOf src limit last?) ∧
    (result.log.filter fun d => d.rule = .unsetDecoratorField) =
      (role.keyRules src).filterMap
        (fun rule => (last? rule.key).bind fun value => rule.unset? src value) ∧
    ((role.keyRules src).map KeyRule.key).Nodup ∧
    ∀ value? : String → Option Node,
      (∀ rule ∈ role.keyRules src, value? rule.key = last? rule.key) →
        recordBy src limit value? site.node base.value role = result.value := by
  intro limit base read last? result
  have hresult : result = base >>= fun record => read >>= fun pairs =>
      recordWith src limit site.node record pairs role :=
    collectDecorated_eq config site role
  have hvalue : result.value = recordBy src limit last? site.node base.value role := by
    rw [hresult, value_bind, value_bind]
    exact value_recordWith site.node base.value role
  have hlog : result.log =
      base.log ++ read.log ++ (role.keyRules src).flatMap (saidOf src limit last?) := by
    rw [hresult, log_bind, log_bind, log_recordWith, List.append_assoc]
    rfl
  refine ⟨hvalue, hlog, ?_, role.nodup_keys src, ?_⟩
  · have hclass : (base.log.filter fun d => d.rule = .unsetDecoratorField) = [] :=
      (raisesOnly_collectClass site).filter_eq_nil (by decide)
    have hread : (read.log.filter fun d => d.rule = .unsetDecoratorField) = [] :=
      (raisesOnly_configPairs config.aliases site role).filter_eq_nil (by decide)
    rw [hlog, List.filter_append, List.filter_append, hclass, hread, List.filter_flatMap,
      List.filterMap_eq_flatMap_toList]
    exact congrArg (List.flatMap · (role.keyRules src)) (funext (filter_saidOf last?))
  · intro value? hvalues
    rw [hvalue, recordBy_congr hvalues]

/-- The source `@Pipe({ pure: true, name: 'a', pure: 1, name: 'b' }) class P {}`. -/
def repeatedSource : Source :=
  Source.ofText "repeated.ts"
    "@Pipe(\x7b pure: true, name: 'a', pure: 1, name: 'b' \x7d) class P \x7b\x7d"

/-- A pair with a key of four letters at an offset. -/
def pairAt (i : Nat) (value : Node) : Node :=
  .named "pair" none i value.head.stop [
    .named "property_identifier" (some "key") i (i + 4) [], .token ":" (i + 4) (i + 5), value]

/-- The string `'…'` of one letter at an offset, as a value. -/
def letterAt (i : Nat) : Node :=
  .named "string" (some "value") i (i + 3) [
    .token "\x27" i (i + 1), .named "string_fragment" none (i + 1) (i + 2) [],
    .token "\x27" (i + 2) (i + 3)]

/-- The second value of `pure`, which is no truth value. -/
def numberNode : Node :=
  .named "number" (some "value") 37 38 []

/-- The class of `@Pipe({ pure: true, name: 'a', pure: 1, name: 'b' }) class P {}`. -/
def repeatedSite : Site where
  parent := none
  node := .named "class_declaration" none 0 63 [
    .named "decorator" none 0 52 [
      .token "@" 0 1,
      .named "call_expression" none 1 52 [
        .named "identifier" (some "function") 1 5 [],
        .named "arguments" (some "arguments") 5 52 [
          .token "(" 5 6,
          .named "object" none 6 51 [
            .token "\x7b" 6 7, pairAt 8 (.named "true" (some "value") 14 18 []), .token "," 18 19,
            pairAt 20 (letterAt 26), .token "," 29 30, pairAt 31 numberNode, .token "," 38 39,
            pairAt 40 (letterAt 46), .token "\x7d" 50 51],
          .token ")" 51 52]]],
    .token "class" 53 58, .named "type_identifier" (some "name") 59 60 [],
    .named "class_body" (some "body") 61 63 [.token "\x7b" 61 62, .token "\x7d" 62 63]]

/-- The last values of two keys of a pipe. -/
def repeatedValue? : String → Option Node
  | "name" => some (letterAt 46)
  | "pure" => some numberNode
  | _ => none

/-- The last of two pairs counts also where its value has a wrong shape and that of the first one
does not. -/
theorem decorator_fields_by_last_pair_repeated :
    let result := collectDecorated repeatedSource Config.standard repeatedSite .pipe
    result.value = .pipe {
      base := (collectClass repeatedSource 256 repeatedSite).value
      info := { name := some "b", pure := none, standalone := none } } ∧
    (result.log.filter fun d => d.rule = .unsetDecoratorField) = [
      Diagnostic.ofRule .unsetDecoratorField (repeatedSource.location numberNode)
        "`pure` expects `true` or `false`, found `number`"] := by
  obtain ⟨-, -, hreports, -, hrecord⟩ :=
    decorator_fields_by_last_pair repeatedSource Config.standard repeatedSite .pipe
  refine ⟨(hrecord repeatedValue? ?_).symm, ?_⟩
  · simp only [Role.keyRules, List.forall_mem_cons]
    exact ⟨rfl, rfl, rfl, List.forall_mem_nil _⟩
  · rw [hreports]
    rfl

end DeclCatalog
