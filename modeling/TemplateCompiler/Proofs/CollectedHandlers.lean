import TemplateCompiler.Proofs.MergedObjects

/-! No handler is lost or doubled on its way into the properties of an element. Merging puts each
one where the first entry of its key is, so that in the end the handlers are those of the listeners
and models of the element in some order. -/

namespace TemplateCompiler

namespace Expr

mutual

/-- The handlers in an expression from left to right. -/
def handlers : Expr → List Expr
  | handler body traits => [handler body traits]
  | compound parts => handlersAll parts
  | array items => handlersAll items
  | call _ args => handlersAll args
  | props entries => handlersEntries entries
  | _ => []

def handlersAll : List Expr → List Expr
  | [] => []
  | expr :: rest => expr.handlers ++ handlersAll rest

def handlersEntries : List (Expr × Expr) → List Expr
  | [] => []
  | (key, value) :: rest => key.handlers ++ (value.handlers ++ handlersEntries rest)

end

@[simp]
theorem handlersAll_append (first second : List Expr) :
    handlersAll (first ++ second) = handlersAll first ++ handlersAll second := by
  induction first with
  | nil => rfl
  | cons expr rest ih => simp [handlersAll, ih]

mutual

theorem HandlerFree.handlers : {expr : Expr} → expr.HandlerFree → expr.handlers = []
  | handler _ _, free => nomatch free _ .self
  | compound parts, free => by
    rw [Expr.handlers, @handlersAll_of_free parts ((handlerFree_compound parts).1 free)]
  | array items, free => by
    rw [Expr.handlers, @handlersAll_of_free items ((handlerFree_array items).1 free)]
  | call helper args, free => by
    rw [Expr.handlers, @handlersAll_of_free args ((handlerFree_call helper args).1 free)]
  | props entries, free => by
    rw [Expr.handlers, @handlersEntries_of_free entries ((handlerFree_props entries).1 free)]
  | source _, _ | number _, _ | literal _, _ | madeLiteral _, _ | simple _ _, _ | param _, _
  | context _, _ | symbol _, _ => by rw [Expr.handlers] <;> simp

theorem handlersAll_of_free : {exprs : List Expr} → (∀ expr ∈ exprs, expr.HandlerFree) →
    handlersAll exprs = []
  | [], _ => rfl
  | expr :: rest, free => by
    obtain ⟨own, others⟩ := List.forall_mem_cons.1 free
    rw [handlersAll, HandlerFree.handlers own, handlersAll_of_free others]
    rfl

theorem handlersEntries_of_free : {entries : List (Expr × Expr)} →
    (∀ entry ∈ entries, entry.1.HandlerFree ∧ entry.2.HandlerFree) → handlersEntries entries = []
  | [], _ => rfl
  | (key, value) :: rest, free => by
    obtain ⟨⟨name, own⟩, others⟩ := List.forall_mem_cons.1 free
    rw [handlersEntries, HandlerFree.handlers name, HandlerFree.handlers own,
      handlersEntries_of_free others]
    rfl

end

mutual

theorem handlers_withoutCells : (expr : Expr) →
    (expr.withoutCells.handlers).map withoutCells = expr.handlers.map withoutCells
  | handler _ _ => rfl
  | compound parts => handlersAll_withoutCells parts
  | array items => handlersAll_withoutCells items
  | call _ args => handlersAll_withoutCells args
  | props entries => handlersEntries_withoutCells entries
  | source _ | number _ | literal _ | madeLiteral _ | simple _ _ | param _ | context _
  | symbol _ => by rw [withoutCells] <;> simp

theorem handlersAll_withoutCells : (exprs : List Expr) →
    (handlersAll (withoutCellsAll exprs)).map withoutCells = (handlersAll exprs).map withoutCells
  | [] => rfl
  | expr :: rest => by
    rw [withoutCellsAll, handlersAll, handlersAll, List.map_append, List.map_append,
      handlers_withoutCells expr, handlersAll_withoutCells rest]

theorem handlersEntries_withoutCells : (entries : List (Expr × Expr)) →
    (handlersEntries (withoutCellsEntries entries)).map withoutCells =
      (handlersEntries entries).map withoutCells
  | [] => rfl
  | (key, value) :: rest => by
    rw [withoutCellsEntries, handlersEntries, handlersEntries, List.map_append, List.map_append,
      List.map_append, List.map_append, handlers_withoutCells value,
      handlersEntries_withoutCells rest]

end

theorem handlersAll_congr {first second : Option Expr}
    (same : first.map withoutCells = second.map withoutCells) :
    (handlersAll first.toList).map withoutCells = (handlersAll second.toList).map withoutCells := by
  have erased (props : Option Expr) :
      withoutCellsAll props.toList = (props.map withoutCells).toList := by
    cases props <;> rfl
  rw [← handlersAll_withoutCells, ← handlersAll_withoutCells second.toList, erased, erased, same]

theorem filter_objects_congr {first second : Option Expr}
    (same : first.map withoutCells = second.map withoutCells) (helper : Helper) :
    ((objects first).filter (·.helper? == some helper)).map withoutCells =
      ((objects second).filter (·.helper? == some helper)).map withoutCells := by
  have erased (props : Option Expr) :
      ((objects props).filter (·.helper? == some helper)).map withoutCells =
        (objects (props.map withoutCells)).filter (·.helper? == some helper) := by
    simp only [objects_withoutCells, List.filter_map, Function.comp_def, helper?_withoutCells]
  rw [erased, erased, same]

theorem handlersAll_objects (props : Option Expr) :
    handlersAll (objects props) = handlersAll props.toList := by
  fun_cases objects props with
  | case1 | case3 => rfl
  | case2 objects => exact (List.append_nil _).symm

end Expr

def valueHandlers (entries : List Entry) : List Expr :=
  entries.flatMap (·.2.handlers)

section Merging

variable {entries : List Entry} {entry : Entry} {name : String}

theorem handlers_mergeValues (old new : Expr) :
    (mergeValues old new).handlers = old.handlers ++ new.handlers := by
  cases old <;> simp [mergeValues, Expr.handlers, Expr.handlersAll]

theorem handlers_props (keys : ∀ entry ∈ entries, entry.1.HandlerFree) :
    (Expr.props entries).handlers = valueHandlers entries := by
  rw [Expr.handlers]
  induction entries with
  | nil => rfl
  | cons entry rest ih =>
    obtain ⟨own, others⟩ := List.forall_mem_cons.1 keys
    rw [Expr.handlersEntries, own.handlers, ih others]
    rfl

@[simp]
theorem valueHandlers_nil : valueHandlers [] = [] := rfl

@[simp]
theorem valueHandlers_append (first second : List Entry) :
    valueHandlers (first ++ second) = valueHandlers first ++ valueHandlers second :=
  List.flatMap_append

theorem valueHandlers_cons (entry : Entry) (rest : List Entry) :
    valueHandlers (entry :: rest) = entry.2.handlers ++ valueHandlers rest :=
  List.flatMap_cons

theorem perm_mergedUnder (distinct : (staticNames entries).Nodup)
    (known : name ∈ staticNames entries) (value : Expr) :
    (valueHandlers (mergedUnder name value entries)).Perm
      (valueHandlers entries ++ value.handlers) := by
  induction entries with
  | nil => cases known
  | cons first rest ih =>
    have split : mergedUnder name value (first :: rest) =
        (if first.1.staticKey? == some name then (first.1, mergeValues first.2 value) else first) ::
          mergedUnder name value rest := rfl
    cases key : first.1.staticKey? with
    | none =>
      rw [staticNames_cons_of_unknown key] at distinct known
      rw [split, key, if_neg nofun, valueHandlers_cons, valueHandlers_cons, List.append_assoc]
      exact (ih distinct known).append_left _
    | some other =>
      rw [staticNames_cons key] at distinct known
      obtain ⟨apart, others⟩ := List.nodup_cons.1 distinct
      by_cases same : other = name
      · subst same
        rw [split, key, if_pos (beq_self_eq_true _), mergedUnder_of_absent apart,
          valueHandlers_cons, valueHandlers_cons, handlers_mergeValues, List.append_assoc,
          List.append_assoc]
        exact List.perm_append_comm.append_left _
      · have behind := (List.mem_cons.1 known).resolve_left fun equal => same equal.symm
        rw [split, key, if_neg (by simpa using same), valueHandlers_cons, valueHandlers_cons,
          List.append_assoc]
        exact (ih others behind).append_left _

theorem perm_addEntry (distinct : (staticNames entries).Nodup) (merges : Entry.Merges entry) :
    (valueHandlers (addEntry entries entry)).Perm (valueHandlers entries ++ entry.2.handlers) := by
  rcases addEntry_cases entries entry with
    ⟨-, same⟩ | ⟨name, named, known, ⟨-, same⟩ | ⟨keeps, same⟩⟩
  · rw [same, valueHandlers_append, valueHandlers_cons]
    exact .of_eq (by simp [valueHandlers])
  · rw [same]
    exact perm_mergedUnder distinct known entry.2
  · have free : entry.2.HandlerFree := by
      refine merges.merged.resolve_right fun merged => ?_
      rw [merged name named] at keeps
      cases keeps
    rw [same, free.handlers, List.append_nil]

theorem perm_dedupe (merges : ∀ entry ∈ entries, Entry.Merges entry) :
    (valueHandlers (dedupe entries)).Perm (valueHandlers entries) := by
  suffices collected : ∀ done : List Entry, (staticNames done).Nodup →
      (valueHandlers (entries.foldl addEntry done)).Perm
        (valueHandlers done ++ valueHandlers entries) from collected [] List.nodup_nil
  induction entries with
  | nil =>
    intro done _
    simp [valueHandlers]
  | cons entry rest ih =>
    obtain ⟨own, others⟩ := List.forall_mem_cons.1 merges
    intro done distinct
    have later := ih others _ (nodup_addEntry distinct entry)
    refine later.trans (((perm_addEntry distinct own).append_right _).trans ?_)
    rw [List.append_assoc]
    exact .refl _

end Merging

namespace Collection

variable {collection : Collection} {contribution : Contribution}

def handlers (collection : Collection) : List Expr :=
  Expr.handlersAll collection.merged ++ valueHandlers collection.pending

/-- Merging loses no handler of the entries that are collected. -/
def Merges (collection : Collection) : Prop :=
  ∀ entry ∈ collection.pending, entry.1.HandlerFree ∧ Entry.Merges entry

theorem perm_flush (merges : collection.Merges) :
    collection.flush.handlers.Perm collection.handlers := by
  unfold flush
  split
  · exact .refl _
  · have keys : ∀ entry ∈ dedupe collection.pending, entry.1.HandlerFree :=
      forall_dedupe (fun _ _ _ _ _ key _ => key) fun entry member => (merges entry member).1
    have merged := perm_dedupe fun entry member => (merges entry member).2
    simp only [handlers, Expr.handlersAll_append, Expr.handlersAll, handlers_props keys,
      valueHandlers_nil, List.append_nil]
    exact merged.append_left _

theorem merges_add (isComponent : Bool) (merges : collection.Merges) (new : contribution.Merges) :
    (collection.add isComponent contribution).Merges := by
  have appended (added : List Entry)
      (given : ∀ entry ∈ added, entry.1.HandlerFree ∧ Entry.Merges entry) :
      ∀ entry ∈ collection.pending ++ added, entry.1.HandlerFree ∧ Entry.Merges entry :=
    List.forall_mem_append.2 ⟨merges, given⟩
  cases contribution with
  | fixed name value => exact appended [(.string name, value)] new.entries
  | entries given => exact appended given new.entries
  | spread value =>
    intro entry member
    rw [add, pending_flush] at member
    cases member
  | nothing => exact merges

theorem perm_add (isComponent : Bool) (merges : collection.Merges) (new : contribution.Merges) :
    (collection.add isComponent contribution).handlers.Perm
      (collection.handlers ++ valueHandlers contribution.added) := by
  cases contribution with
  | spread value =>
    have same : (collection.add isComponent (.spread value)).handlers = collection.flush.handlers := by
      simp [add, handlers, Expr.handlersAll, (new.spread value rfl).handlers]
    rw [same]
    exact (perm_flush merges).trans (.of_eq (by simp [Contribution.added]))
  | _ => simp [add, handlers, Contribution.added, valueHandlers]

theorem perm_foldl (isComponent : Bool) {contributions : List Contribution}
    (merges : collection.Merges) (new : ∀ contribution ∈ contributions, contribution.Merges) :
    (contributions.foldl (add isComponent) collection).Merges ∧
      (contributions.foldl (add isComponent) collection).handlers.Perm
        (collection.handlers ++ contributions.flatMap fun given => valueHandlers given.added) := by
  induction contributions generalizing collection with
  | nil => exact ⟨merges, .of_eq (by simp)⟩
  | cons contribution rest ih =>
    obtain ⟨own, others⟩ := List.forall_mem_cons.1 new
    obtain ⟨last, later⟩ := ih (merges_add isComponent merges own) others
    refine ⟨last, later.trans ?_⟩
    rw [List.flatMap_cons, ← List.append_assoc]
    exact (perm_add isComponent merges own).append_right _

theorem perm_expr? (merges : collection.Merges) :
    (Expr.handlersAll collection.expr?.toList).Perm collection.handlers := by
  have flushed := perm_flush merges
  have emptied : collection.flush.handlers = Expr.handlersAll collection.flush.merged := by
    have none : collection.flush.pending = [] := pending_flush
    rw [handlers, none, valueHandlers_nil, List.append_nil]
  rw [emptied] at flushed
  unfold expr?
  split
  · next none => rwa [none] at flushed
  · next only one => rwa [one] at flushed
  · simpa [Expr.handlersAll, Expr.handlers] using flushed

end Collection

def listenerHandlers (around : Surroundings) (element : Element) : List Expr :=
  ((directivesNamed element.properties "on").flatMap fun directive =>
      valueHandlers (Contribution.ofListener around directive).value.added) ++
    (directivesNamed element.properties "model").flatMap fun directive =>
      valueHandlers (Contribution.ofModel around element directive).value.added

def listenerObjects (around : Surroundings) (element : Element) : List Expr :=
  (directivesNamed element.properties "on").filterMap fun directive =>
    (Contribution.ofListener around directive).value.spread?

structure Element.KeepsListeners (element : Element) (around : Surroundings)
    (props : Option Expr) : Prop where
  /-- A listener with an argument is converted to one handler. -/
  converted : ∀ directive ∈ directivesNamed element.properties "on",
    directive.argument.isSome = true → ∃ body traits,
      valueHandlers (Contribution.ofListener around directive).value.added = [.handler body traits]
  /-- No value that is contributed is a list of its own. -/
  single : ∀ contribution ∈ contributions around element, ∀ entry ∈ contribution.added,
    entry.2.isArray = false
  handlers : ((Expr.handlersAll props.toList).map Expr.withoutCells).Perm
    ((listenerHandlers around element).map Expr.withoutCells)
  objects : ((Expr.objects props).filter (·.helper? == some .toHandlers)).map Expr.withoutCells =
    (listenerObjects around element).map Expr.withoutCells

section Elements

variable (around : Surroundings)

theorem perm_collectedProperties {element : Element}
    (named : (Content.element element).Named) :
    (Expr.handlersAll (collectedProperties around element).expr?.toList).Perm
      (listenerHandlers around element) := by
  obtain ⟨merges, collected⟩ := @Collection.perm_foldl {} (element.kind = .component)
    (contributions around element) (List.forall_mem_nil _) (merges_contributions around named)
  refine (Collection.perm_expr? merges).trans (collected.trans (.of_eq ?_))
  have plain (property : Property) :
      valueHandlers (plainContribution around element property).value.added = [] :=
    List.flatMap_eq_nil_iff.2 fun entry member =>
      (plain_plainContribution around element property entry member).1.handlers
  simp [contributions, listenerHandlers, Collection.handlers, Expr.handlersAll, plain,
    List.flatMap_map, List.flatMap_append]

/-- Of what is spread the listeners are the calls that make handlers. -/
theorem objects_collectedProperties (element : Element) :
    (Expr.objects (collectedProperties around element).expr?).filter
        (·.helper? == some .toHandlers) = listenerObjects around element := by
  have calls (object : Expr) : (object.helper? == some .toHandlers) =
      (object.helper? == some .toHandlers && object.entries?.isNone) := by
    cases object <;> simp [Expr.helper?, Expr.entries?]
  have plain : (element.properties.filterMap fun property =>
      (plainContribution around element property).value.spread?).filter
        (·.helper? == some .toHandlers) = [] := by
    simp only [List.filter_eq_nil_iff, List.mem_filterMap]
    rintro value ⟨property, -, spread⟩
    rw [Expr.helper?_of_isTerm (spread?_plainContribution around element property value spread)]
    exact Bool.false_ne_true
  have listeners : (listenerObjects around element).filter (·.helper? == some .toHandlers) =
      listenerObjects around element := by
    simp only [List.filter_eq_self, listenerObjects, List.mem_filterMap]
    rintro value ⟨directive, -, spread⟩
    obtain ⟨given, rfl⟩ := Contribution.spread?_ofListener around directive value spread
    rfl
  have models : ((directivesNamed element.properties "model").filterMap fun directive =>
      (Contribution.ofModel around element directive).value.spread?) = [] := by
    simp [Contribution.spread?_ofModel]
  rw [List.filter_congr fun object _ => calls object, ← List.filter_filter,
    (collectedProperties_objects around element).2, contributions]
  simp only [List.filterMap_append, List.filter_append, List.filterMap_map, Function.comp_def]
  rw [plain, models, List.filter_nil, List.append_nil]
  exact listeners

variable {around}

theorem handlersAll_keyedObjects (key : Nat) (objects : List Expr) :
    Expr.handlersAll (keyedObjects key objects) = Expr.handlersAll objects := by
  have entry (entries : List Entry) :
      Expr.handlersEntries ((.string "key", .number key) :: entries) =
        Expr.handlersEntries entries := rfl
  fun_cases keyedObjects key objects with
  | case1 entries rest => simp only [Expr.handlersAll, Expr.handlers, entry]
  | case2 => rfl

theorem filter_keyedObjects (key : Nat) (objects : List Expr) :
    (keyedObjects key objects).filter (·.helper? == some .toHandlers) =
      objects.filter (·.helper? == some .toHandlers) := by
  fun_cases keyedObjects key objects with
  | case1 | case2 => rfl

theorem listeners_finish (role : Role) (properties : Properties) (made : VNode) :
    Expr.handlersAll (role.finish properties made).props.toList =
        Expr.handlersAll made.props.toList ∧
      (Expr.objects (role.finish properties made).props).filter (·.helper? == some .toHandlers) =
        (Expr.objects made.props).filter (·.helper? == some .toHandlers) := by
  cases role with
  | child | item | root => exact ⟨rfl, rfl⟩
  | branch key =>
    simp only [Role.finish]
    split
    · exact ⟨rfl, rfl⟩
    · rw [objects_addKey, filter_keyedObjects, ← Expr.handlersAll_objects, objects_addKey,
        handlersAll_keyedObjects, Expr.handlersAll_objects]
      exact ⟨rfl, rfl⟩

theorem keepsListeners_finish {element : Element} {role : Role} {made call : VNode}
    (named : (Content.element element).Named)
    (collected : made.props = (collectedProperties around element).expr?)
    (same : call.props.map Expr.withoutCells =
      (role.finish element.properties made).props.map Expr.withoutCells) :
    element.KeepsListeners around call.props := by
  obtain ⟨handlers, objects⟩ := listeners_finish role element.properties made
  refine ⟨?_, ?_, ?_, ?_⟩
  · intro directive _ present
    obtain ⟨argument, given⟩ := Option.isSome_iff_exists.1 present
    obtain ⟨body, traits, entry⟩ := Contribution.listener_entry around directive argument
    refine ⟨body, traits, ?_⟩
    rw [Contribution.ofListener_of_argument around given, entry]
    rfl
  · intro contribution member entry added
    exact ((merges_contributions around named contribution member).entries entry added).2.single
  · rw [Expr.handlersAll_congr same, handlers, collected]
    exact (perm_collectedProperties around named).map _
  · rw [Expr.filter_objects_congr same, objects, collected, objects_collectedProperties]

end Elements

def Plan.KeepsListeners (option : LowerOption) (plan : Plan) : Prop :=
  ∀ node above element, Node.Lineage plan.template.roots node above →
    node.content = .element element → ∃ call, plan.unfolded? node.id = some (.vnode call) ∧
      element.KeepsListeners ((option.surroundings.along above).inside element) call.props

/-- Whatever was parsed, merging keeps all names and values that it is to keep, and no listener and
no model of an element is lost or written twice. -/
theorem lower_keepsListeners {parsing : ParseOption} {lowering : LowerOption} {reading : Scan}
    {template : Template} {problems : List Problem} {lowered : Lowered}
    (parsed : parse parsing reading = .ok (template, problems))
    (lowers : lower lowering template = .ok lowered) :
    (∀ entries : List Entry, (∀ entry ∈ entries, entry.2.isArray = false) →
        Gathers entries (dedupe entries)) ∧
      lowered.plan.KeepsListeners lowering := by
  refine ⟨fun entries => gathers_dedupe, ?_⟩
  intro node above element lineage content
  have named := lower_named parsed lowers node (Node.mem_flattenAll_iff.2 ⟨above, lineage⟩)
  rw [content] at named
  obtain ⟨roots, progress, stages⟩ := lower_stages (numbered_of_parse parsed) lowers
  rw [stages.roots_eq] at lineage
  obtain ⟨role, settled⟩ := Settled.along stages.walked.settled lineage
  obtain ⟨call, made, unfolded, collected, same⟩ := stages.props_unfolded settled content
  exact ⟨call, unfolded, keepsListeners_finish named collected same⟩

/-- Classes and listeners that share names, listeners of an unknown name and of a whole object, and
a model beside a listener of its event. -/
def crowdedSource : String :=
  "<p v-if=\"a\" class=\"b\" @click=\"c\" :class=\"d\" v-on=\"e\" v-on:click.once=\"f\" " ++
    "v-on:click=\"g\" @[h]=\"i\"/><input v-model=\"j\" @input=\"k\" id=\"l\" :id=\"m\">"

def crowdedEntries : List Entry :=
  [(.string "id", .string "l"), (.string "onInput", .source "k"), (.source "[h]", .source "i"),
    (.string "id", .source "m"), (.string "onInput", .source "j")]

theorem lower_keepsListeners_crowded : ∃ template problems lowered,
    parse {} (scan {} crowdedSource) = .ok (template, problems) ∧
      lower { cacheHandlers := true } template = .ok lowered ∧
      lowered.plan.slots.map (·.kind) = List.replicate 6 .handler ∧
      (∀ entry ∈ crowdedEntries, entry.2.isArray = false) ∧
      Gathers crowdedEntries (dedupe crowdedEntries) ∧
      lowered.plan.KeepsListeners { cacheHandlers := true } := by
  have succeeds : ((parse {} (scan {} crowdedSource)).bind fun parsed =>
      lower { cacheHandlers := true } parsed.1).toOption.any (fun lowered =>
        decide (lowered.plan.slots.map (·.kind) = List.replicate 6 .handler)) = true := by
    decide +kernel
  obtain ⟨template, problems, lowered, parsed, lowers, kinds⟩ := exists_lowered succeeds
  have single : ∀ entry ∈ crowdedEntries, entry.2.isArray = false := by decide
  obtain ⟨gathers, keeps⟩ := lower_keepsListeners parsed lowers
  exact ⟨template, problems, lowered, parsed, lowers, of_decide_eq_true kinds, single,
    gathers crowdedEntries single, keeps⟩

end TemplateCompiler
