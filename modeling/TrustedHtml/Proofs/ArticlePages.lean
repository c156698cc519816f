import TrustedHtml.Page.ArticlePage
import TrustedHtml.Proofs.RowSources
import TrustedHtml.Url.Web

/-!
# Two Ways to Fill in a Page

A page of articles is filled in by arguments under names, all of which are bound before anything
is written, or by handles, where the values of an article are stored when its turn has come.

Both ways store the same strings in the same order, because the handles are those that the names
lead to. So the values of an article are the same in both ways, and the only check that can fail
is the one of its URL. Where they differ is in what has been written when that happens: nothing,
or the page up to the article.

## Main definitions

* `Article.Rejected`: the URL of an article is not accepted.
* `ArticlePage.writtenBefore`: what is written of a page in front of an article.
* `ArticlePage.Agree`: how the two ways compare for a title and articles.

## Main results

* `ArticlePage.bind_articleArgs`: **binding the arguments of an article stores its values.**
* `ArticlePage.exists_lead`: a page is streamed in two parts, in front of an article and from it
  on.
* `ArticlePage.compile_agree`: **the two ways agree**, for all titles and articles.
-/

namespace TrustedHtml

/-! ### Storing strings -/

namespace ValueSet

variable {vs : ValueSet} {v : Var} [UrlReader]

/-- Storing an untrusted string at its place comes down to checking it. -/
theorem setScalar_untrusted (hattached : v.schema = some vs.schema.id)
    (hslot : vs.schema.scalars[v.index]? = some v) (text : String) :
    vs.setScalar v (.untrusted text) =
      match (SafeString.untrusted text).check v.level with
      | .ok checked => .ok (vs.stored v.index checked)
      | .error e => .error (.ofCause (.bind (.trust v.name.text e))) := by
  have hlt := (List.getElem?_eq_some_iff.mp hslot).1
  rw [setScalar, setScalarRequiring, Schema.checkVar_eq_ok hattached, Schema.slotLevel, hslot]
  simp only [store_eq_stored hlt]
  change (match (SafeString.untrusted text).check (v.level.join .untrusted) with
    | .ok checked => _ | .error e => _) = _
  rw [TrustLevel.join_untrusted]
  rfl

/-- An untrusted string is encoded for a text. -/
theorem setScalar_text (hattached : v.schema = some vs.schema.id)
    (hslot : vs.schema.scalars[v.index]? = some v) (hlevel : v.level = .textSafe) (text : String) :
    vs.setScalar v (.untrusted text) = .ok (vs.stored v.index (Escape.text text)) := by
  rw [setScalar_untrusted hattached hslot, hlevel]
  rfl

/-- An untrusted string that is accepted as a URL is stored as that. -/
theorem setScalar_url (hattached : v.schema = some vs.schema.id)
    (hslot : vs.schema.scalars[v.index]? = some v) (hlevel : v.level = .urlSafe)
    {text url : String} (hurl : Escape.url text = .ok url) :
    vs.setScalar v (.untrusted text) = .ok (vs.stored v.index url) := by
  have hcheck : (SafeString.untrusted text).check .urlSafe = .ok url := hurl
  rw [setScalar_untrusted hattached hslot, hlevel, hcheck]

/-- An untrusted string that is not accepted as a URL is not stored as one. -/
theorem setScalar_url_error (hattached : v.schema = some vs.schema.id)
    (hslot : vs.schema.scalars[v.index]? = some v) (hlevel : v.level = .urlSafe)
    {text : String} {e : TrustError} (hurl : Escape.url text = .error e) :
    vs.setScalar v (.untrusted text) =
      .error (.ofCause (.bind (.trust v.name.text e))) := by
  have hcheck : (SafeString.untrusted text).check .urlSafe = .error e := hurl
  rw [setScalar_untrusted hattached hslot, hlevel, hcheck]

end ValueSet

section

variable [UrlReader]

/-- The URL of an article is not accepted. -/
def Article.Rejected (a : Article) : Prop :=
  ∃ e, Escape.url a.url = .error e

/-- Either all articles are accepted, or there is a first one that is not. -/
theorem Article.first_rejected (articles : List Article) :
    (∀ a ∈ articles, ¬ a.Rejected) ∨
      ∃ before bad after, articles = before ++ bad :: after ∧ (∀ a ∈ before, ¬ a.Rejected) ∧
        bad.Rejected := by
  induction articles with
  | nil => exact .inl nofun
  | cons a rest ih =>
      by_cases ha : a.Rejected
      · exact .inr ⟨[], a, rest, rfl, nofun, ha⟩
      · obtain hrest | ⟨before, bad, after, rfl, hbefore, hbad⟩ := ih
        · exact .inl (List.forall_mem_cons.mpr ⟨ha, hrest⟩)
        · exact .inr ⟨a :: before, bad, after, rfl, List.forall_mem_cons.mpr ⟨ha, hbefore⟩, hbad⟩

end

namespace ArticlePage

/-! ### How the two ways compare -/

/-- Whether a chunk is carried out for every article. -/
def repeatsArticles (p : ArticlePage) : Chunk → Bool
  | .subsection t _ => t = p.articles
  | _ => false

/-- The program of a page up to its articles, and no further. -/
def untilArticles (p : ArticlePage) : Program :=
  p.template.program.take (p.template.program.findIdx p.repeatsArticles + 1)

section

variable [UrlReader]

/-- What is written of a page in front of an article that comes after `earlier` ones. -/
def writtenBefore (p : ArticlePage) (pageTitle : String) (earlier : List Article) : String :=
  match p.values pageTitle earlier with
  | .ok vs => (p.untilArticles.render vs).text
  | .error _ => ""

/-- **The two ways to fill in a page agree** for a title and articles. -/
structure Agree (p : ArticlePage) (pageTitle : String) (articles : List Article) : Prop where
  /-- Both succeed or none does. -/
  succeeds_iff : (p.renderBound pageTitle articles none).stopped = none ↔
    (p.renderStreamed pageTitle articles none).stopped = none
  /-- If they succeed, they write the same. -/
  same_text : (p.renderBound pageTitle articles none).stopped = none →
    (p.renderBound pageTitle articles none).accepted =
      (p.renderStreamed pageTitle articles none).accepted
  /-- They fail if a URL is rejected, and only then. -/
  fails_iff : (p.renderBound pageTitle articles none).stopped ≠ none ∧
    (p.renderStreamed pageTitle articles none).stopped ≠ none ↔ ∃ a ∈ articles, a.Rejected
  /-- The cause is the first URL that is rejected. By then nothing is written, or all that is in
  front of its article. -/
  first_rejected : ∀ before bad after e, articles = before ++ bad :: after →
    (∀ a ∈ before, ¬ a.Rejected) → Escape.url bad.url = .error e →
    (p.renderBound pageTitle articles none).accepted = "" ∧
      (p.renderBound pageTitle articles none).cause? = some (.bind (.trust "url" e)) ∧
      (p.renderStreamed pageTitle articles none).accepted = p.writtenBefore pageTitle before ∧
      (p.renderStreamed pageTitle articles none).cause? = some (.bind (.trust "url" e))
  /-- What is in front of an article depends on the title and the articles before it only. -/
  common_prefix : ∀ before after, articles = before ++ after → (∀ a ∈ before, ¬ a.Rejected) →
    ∃ later, (p.renderStreamed pageTitle articles none).accepted =
      p.writtenBefore pageTitle before ++ later

end

/-! ### The schemas of a page -/

/-- The variable of a text. -/
def textVar (number index : ℕ) (name : String) (name_ne : name ≠ "" := by nofun) : Var :=
  ⟨index, ⟨name, name_ne⟩, .textSafe, some ⟨number⟩⟩

/-- The variable of the URL. -/
def urlVar (number : ℕ) : Var :=
  ⟨0, ⟨"url", nofun⟩, .urlSafe, some ⟨number⟩⟩

/-- The only subsection of a schema, whose rows have the schema that is declared next. -/
def rowsTag (number : ℕ) (name : String) (name_ne : name ≠ "" := by nofun) : Tag :=
  ⟨0, ⟨name, name_ne⟩, ⟨number⟩, ⟨number + 1⟩⟩

/-- The schema of comments. -/
def commentSchema (next : ℕ) : Schema where
  id := ⟨next + 2⟩
  strict := false
  nesting := some ⟨⟨next + 1⟩, 0, ⟨"comments", nofun⟩⟩
  scalars := [textVar (next + 2) 0 "comment_author", textVar (next + 2) 1 "comment_text"]
  subsections := []

/-- The schema of articles, whose variables are declared in the order of the page. -/
def articleSchema (next : ℕ) : Schema where
  id := ⟨next + 1⟩
  strict := false
  nesting := some ⟨⟨next⟩, 0, ⟨"articles", nofun⟩⟩
  scalars := [urlVar (next + 1), textVar (next + 1) 1 "title", textVar (next + 1) 2 "author",
    textVar (next + 1) 3 "body", textVar (next + 1) 4 "comment_count"]
  subsections := [(rowsTag (next + 1) "comments", commentSchema next)]

/-- The schema of a page. -/
def pageSchema (next : ℕ) : Schema where
  id := ⟨next⟩
  strict := false
  nesting := none
  scalars := [textVar next 0 "page_title"]
  subsections := [(rowsTag next "articles", articleSchema next)]

/-- A page with the handles that its schemas give. -/
def ofTemplate (next : ℕ) (t : Template) : ArticlePage where
  template := t
  pageTitle := textVar next 0 "page_title"
  articles := rowsTag next "articles"
  title := textVar (next + 1) 1 "title"
  author := textVar (next + 1) 2 "author"
  url := urlVar (next + 1)
  body := textVar (next + 1) 3 "body"
  commentCount := textVar (next + 1) 4 "comment_count"
  comments := rowsTag (next + 1) "comments"
  commentAuthor := textVar (next + 2) 0 "comment_author"
  commentText := textVar (next + 2) 1 "comment_text"

/-- What the tree of a page declares. The title of the page is used twice. -/
theorem uses_node : node.uses =
    [.scalar ⟨"page_title", by decide⟩ .textSafe, .scalar ⟨"page_title", by decide⟩ .textSafe,
      .subsection ⟨"articles", by decide⟩
        [.scalar ⟨"url", by decide⟩ .urlSafe, .scalar ⟨"title", by decide⟩ .textSafe,
          .scalar ⟨"author", by decide⟩ .textSafe, .scalar ⟨"body", by decide⟩ .textSafe,
          .scalar ⟨"comment_count", by decide⟩ .textSafe,
          .subsection ⟨"comments", by decide⟩
            [.scalar ⟨"comment_author", by decide⟩ .textSafe,
              .scalar ⟨"comment_text", by decide⟩ .textSafe]]] := rfl

/-- The schema that compiling a page leads to. -/
theorem schema_useAll_node (next : ℕ) :
    ((Scope.newRoot next).useAll node.uses).schema = pageSchema next := by
  simp [uses_node, Scope.useAll, Scope.use, Scope.inside, Scope.declareSubsection,
    Schema.declare, Schema.scalar?, Scope.newRoot, Schema.root, Schema.setChild, pageSchema,
    articleSchema, commentSchema, TrustLevel.join_self, textVar, urlVar, rowsTag]

variable (next : ℕ)

/-- The schema of a page is in order. -/
theorem inOrder_pageSchema : (pageSchema next).InOrder := by
  rw [← schema_useAll_node]
  exact Scope.useAll_inOrder (Schema.inOrder_of_empty rfl rfl) _

/-- The schema of articles is in order. -/
theorem inOrder_articleSchema : (articleSchema next).InOrder :=
  @Schema.InOrder.rows _ _ (inOrder_pageSchema next) "articles" rfl

/-- The articles of a page have the schema of articles. -/
theorem child_pageSchema :
    (pageSchema next).child (rowsTag next "articles") = .ok (articleSchema next) :=
  @Schema.InOrder.child_eq _ _ (inOrder_pageSchema next) "articles" _ rfl rfl

/-- The comments of an article have the schema of comments. -/
theorem child_articleSchema :
    (articleSchema next).child (rowsTag (next + 1) "comments") = .ok (commentSchema next) :=
  @Schema.InOrder.child_eq _ _ (inOrder_articleSchema next) "comments" _ rfl rfl

section

variable [UrlReader]

/-- All names and literals of the page are accepted. -/
theorem verify_node : node.verify = .ok () := rfl

variable {next}

/-- **A page is compiled**, unless a counter overflows, and its handles are those of its
schemas. -/
theorem exists_compile_eq {o : LayoutOptions} (h : ∀ x, compile o next ≠ .error (.overflow x)) :
    ∃ t n, node.compile o (.newRoot next) = (.ok t, n) ∧ t.schema = pageSchema next ∧
      compile o next = .ok (ofTemplate next t) := by
  obtain ⟨-, x, n, hrun⟩ | ⟨e, n, hverify, -⟩ | ⟨-, -, t, hrun, hschema⟩ :=
    node.compile_cases o (.newRoot next)
  · refine absurd ?_ (h x)
    rw [compile, hrun]
    rfl
  · rw [verify_node] at hverify
    cases hverify
  · rw [schema_useAll_node] at hschema
    refine ⟨t, _, hrun, hschema, ?_⟩
    have hfind : findTag (pageSchema next) "articles" = .ok (rowsTag next "articles") := rfl
    have hfind' : findTag (articleSchema next) "comments" =
      .ok (rowsTag (next + 1) "comments") := rfl
    rw [compile, hrun]
    simp only [bind, Except.bind, hschema, hfind, child_pageSchema, hfind', child_articleSchema,
      Except.mapError]
    rfl

/-! ### The values of a page -/

variable (next) (t : Template)

/-- The values of a comment. -/
def commentValues (c : Comment) : ValueSet :=
  ⟨commentSchema next, [Escape.text c.author, Escape.text c.text], []⟩

/-- Strings for an article. -/
def articleStrings (values : List String) : ValueSet :=
  ⟨articleSchema next, values, []⟩

/-- The values of an article whose URL is accepted as `url`. -/
def articleValues (url : String) (a : Article) : ValueSet :=
  ⟨articleSchema next, [url, Escape.text a.title, Escape.text a.author, Escape.text a.body,
    Escape.text (toString a.comments.length)],
    [some (.ofRows (a.comments.map (commentValues next)))]⟩

/-- The values of a page. -/
def pageValues (pageTitle : String) (articles : RowStream ValueSet) : ValueSet :=
  ⟨pageSchema next, [Escape.text pageTitle], [some articles]⟩

/-- A comment is made of two encoded strings. -/
theorem commentRow_eq (c : Comment) :
    (ofTemplate next t).commentRow (commentSchema next) c = .ok (commentValues next c) := by
  rw [commentRow]
  refine Except.bind_eq_ok.mpr ⟨_, ValueSet.setScalar_text rfl rfl rfl c.author, ?_⟩
  exact ValueSet.setScalar_text rfl rfl rfl c.text

/-- **Binding the arguments of a comment stores its values.** -/
theorem bind_commentArgs (c : Comment) : (commentSchema next).bind (commentArgs c) =
    (ofTemplate next t).commentRow (commentSchema next) c := by
  rw [Binding.bind_eq_foldlM, commentRow]
  refine Binding.foldlM_applyArg_named rfl rfl _ fun vs hvs => ?_
  exact (Binding.foldlM_applyArg_named hvs rfl _ fun ws _ => rfl).trans (bind_pure _)

/-- The comments of an article are a source that does not fail. -/
theorem ofResults_comments (a : Article) :
    RowStream.ofResults (a.comments.map ((ofTemplate next t).commentRow (commentSchema next))) =
      .ok (.ofRows (a.comments.map (commentValues next))) := by
  have hrows : a.comments.map ((ofTemplate next t).commentRow (commentSchema next)) =
      (a.comments.map (commentValues next)).map .ok := by
    rw [List.map_map]
    exact List.map_congr_left fun c _ => commentRow_eq next t c
  rw [hrows, RowStream.ofResults_map_ok]

/-- **The values of an article**, or the failure of the only check that can fail. -/
theorem articleRow_eq (a : Article) :
    (ofTemplate next t).articleRow (articleSchema next) (commentSchema next) a =
      match Escape.url a.url with
      | .ok url => .ok (articleValues next url a)
      | .error e => .error (.ofCause (.bind (.trust "url" e))) := by
  -- every string goes to the place of its variable, whichever comes first
  have htitle : (articleSchema next).valueSet.setScalar (ofTemplate next t).title
      (.untrusted a.title) = .ok (articleStrings next ["", Escape.text a.title, "", "", ""]) :=
    ValueSet.setScalar_text rfl rfl rfl a.title
  have hauthor : (articleStrings next ["", Escape.text a.title, "", "", ""]).setScalar
      (ofTemplate next t).author (.untrusted a.author) =
      .ok (articleStrings next ["", Escape.text a.title, Escape.text a.author, "", ""]) :=
    ValueSet.setScalar_text rfl rfl rfl a.author
  rw [articleRow]
  refine (Except.bind_of_eq_ok htitle).trans ((Except.bind_of_eq_ok hauthor).trans ?_)
  cases hurl : Escape.url a.url with
  | error e => exact Except.bind_of_eq_error (ValueSet.setScalar_url_error rfl rfl rfl hurl)
  | ok url =>
      have hset : (articleStrings next ["", Escape.text a.title, Escape.text a.author, "",
          ""]).setScalar (ofTemplate next t).url (.untrusted a.url) =
          .ok (articleStrings next [url, Escape.text a.title, Escape.text a.author, "", ""]) :=
        ValueSet.setScalar_url rfl rfl rfl hurl
      have hbody : (articleStrings next [url, Escape.text a.title, Escape.text a.author, "",
          ""]).setScalar (ofTemplate next t).body (.untrusted a.body) =
          .ok (articleStrings next [url, Escape.text a.title, Escape.text a.author,
            Escape.text a.body, ""]) :=
        ValueSet.setScalar_text rfl rfl rfl a.body
      refine (Except.bind_of_eq_ok hset).trans ((Except.bind_of_eq_ok hbody).trans ?_)
      refine (Except.bind_of_eq_ok (ValueSet.setScalar_text rfl rfl rfl _)).trans ?_
      refine (Except.bind_of_eq_ok (ofResults_comments next t a)).trans ?_
      exact congrArg (Except.mapError Abort.misuse)
        (ValueSet.setStream_eq_stored rfl Nat.one_pos _)

/-- **Binding the arguments of an article stores its values.** -/
theorem bind_articleArgs (a : Article) : (articleSchema next).bind (articleArgs a) =
    (ofTemplate next t).articleRow (articleSchema next) (commentSchema next) a := by
  rw [Binding.bind_eq_foldlM, articleRow]
  refine Binding.foldlM_applyArg_named rfl rfl _ fun vs hvs => ?_
  refine Binding.foldlM_applyArg_named hvs rfl _ fun vs hvs => ?_
  refine Binding.foldlM_applyArg_named hvs rfl _ fun vs hvs => ?_
  refine Binding.foldlM_applyArg_named hvs rfl _ fun vs hvs => ?_
  refine Binding.foldlM_applyArg_named hvs rfl _ fun vs hvs => ?_
  have horder : vs.schema.InOrder := hvs ▸ inOrder_articleSchema next
  have hrows := @Binding.applyArg_rows_eq_collect _ _ _ horder "comments" (commentSchema next)
    (rowsTag (next + 1) "comments") (by rw [hvs]; rfl) (by rw [hvs]; rfl) _ _
    (bind_commentArgs next t) a.comments
  rw [List.foldlM_cons, hrows, ofResults_comments]
  exact bind_pure _

/-- The rows of articles are a source that only the check of a URL ends. -/
def articleRows (articles : List Article) : Except Abort (RowStream ValueSet) :=
  RowStream.ofResults <|
    articles.map ((ofTemplate next t).articleRow (articleSchema next) (commentSchema next))

variable {next t}

/-- The title of a page is stored as an encoded string. -/
theorem setScalar_pageTitle (pageTitle : String) :
    (pageSchema next).valueSet.setScalar (textVar next 0 "page_title") (.untrusted pageTitle) =
      .ok ⟨pageSchema next, [Escape.text pageTitle], []⟩ :=
  ValueSet.setScalar_text rfl rfl rfl pageTitle

omit [UrlReader] in
/-- The articles of a page are set as they are. -/
theorem setStream_articles (pageTitle : String) (stream : RowStream ValueSet) :
    ValueSet.setStream ⟨pageSchema next, [Escape.text pageTitle], []⟩ (rowsTag next "articles")
      stream = .ok (pageValues next pageTitle stream) :=
  ValueSet.setStream_eq_stored rfl Nat.one_pos stream

/-- **Storing through handles** leaves what the source of articles gives. -/
theorem values_eq (hschema : t.schema = pageSchema next) (pageTitle : String)
    (articles : List Article) :
    (ofTemplate next t).values pageTitle articles = (do
      let stream ← articleRows next t articles
      return pageValues next pageTitle stream) := by
  have harticles : (t.schema.child (rowsTag next "articles")).mapError Abort.misuse =
      .ok (articleSchema next) := by
    rw [hschema, child_pageSchema]
    rfl
  have hcomments : ((articleSchema next).child (rowsTag (next + 1) "comments")).mapError
      Abort.misuse = .ok (commentSchema next) := by
    rw [child_articleSchema]
    rfl
  have htitle : t.valueSet.setScalar (textVar next 0 "page_title") (.untrusted pageTitle) =
      .ok ⟨pageSchema next, [Escape.text pageTitle], []⟩ := by
    rw [Template.valueSet, hschema]
    exact setScalar_pageTitle pageTitle
  rw [values]
  refine (Except.bind_of_eq_ok harticles).trans ((Except.bind_of_eq_ok hcomments).trans ?_)
  refine (Except.bind_of_eq_ok htitle).trans (Except.bind_congr_ok fun stream _ => ?_)
  exact congrArg (Except.mapError Abort.misuse) (setStream_articles pageTitle stream)

/-- **Binding arguments** collects what the source of articles gives. -/
theorem bind_args (hschema : t.schema = pageSchema next) (pageTitle : String)
    (articles : List Article) :
    t.bind (args pageTitle articles) = (do
      let stream ← articleRows next t articles
      let rows ← stream.collect "articles" 1 articles.length
      return pageValues next pageTitle (.ofRows rows)) := by
  have hrows := @Binding.applyArg_rows_eq_collect _ _ ⟨pageSchema next, [Escape.text pageTitle], []⟩
    (inOrder_pageSchema next) "articles" (articleSchema next) (rowsTag next "articles") rfl rfl _ _
    (bind_articleArgs next t) articles
  rw [Template.bind, hschema, Binding.bind_eq_foldlM]
  refine (Binding.foldlM_applyArg_named rfl rfl _ fun vs hvs => rfl).trans ?_
  refine (Except.bind_of_eq_ok (setScalar_pageTitle pageTitle)).trans ?_
  rw [List.foldlM_cons, hrows]
  refine (bind_pure _).trans (Except.bind_congr_ok fun stream _ => ?_)
  refine Except.bind_congr_ok fun rows _ => ?_
  exact congrArg (Except.mapError Abort.misuse) (setStream_articles pageTitle (.ofRows rows))

/-! ### The program of a page -/

omit [UrlReader] in
/-- The uses of variables in a page: its title, twice, and then the articles. -/
theorem sites_node : node.sites = [.scalar .text (.ofName ⟨"page_title", by decide⟩),
    .scalar .text (.ofName ⟨"page_title", by decide⟩),
    .subsection "articles" articleNode.sites] := rfl

/-- The program of a page is wired to its schema. -/
theorem wired_program {o : LayoutOptions} {n : ℕ}
    (hrun : node.compile o (.newRoot next) = (.ok t, n)) (hschema : t.schema = pageSchema next) :
    t.program.Wired t.schema := by
  obtain ⟨-, -, found, hfound, hprogram⟩ :=
    Node.compiles_of_compile (Schema.wellFormed_of_empty rfl rfl) hrun
  rw [hprogram]
  exact .of_pieces (hfound.wired (hschema ▸ inOrder_pageSchema next))

/-- **In front of the articles** the program of a page writes nothing but texts and strings. -/
theorem exists_program_eq {o : LayoutOptions} {n : ℕ}
    (hrun : node.compile o (.newRoot next) = (.ok t, n)) (hschema : t.schema = pageSchema next) :
    ∃ opening entry closing : Program,
      t.program = opening ++ .subsection (rowsTag next "articles") entry :: closing ∧
        ∀ chunk ∈ opening.steps, ∃ v reflow, chunk = .scalar v reflow := by
  obtain ⟨hwf, -, found, hfound, hprogram⟩ :=
    Node.compiles_of_compile (Schema.wellFormed_of_empty rfl rfl) hrun
  have hsound := hfound.each hwf (.new t.schema)
  have hsites := (Program.Each.of_pieces hsound (o := o)).forall₂_steps
  rw [← hprogram, sites_node] at hsites
  generalize hsteps : t.program.steps = steps at hsites
  obtain _ | ⟨hfirst, _ | ⟨hsecond, _ | ⟨hthird, _ | _⟩⟩⟩ := hsites
  obtain ⟨v, reflow, rfl⟩ := hfirst.exists_eq_scalar
  obtain ⟨w, reflow', rfl⟩ := hsecond.exists_eq_scalar
  obtain ⟨tag, entry, rfl⟩ := hthird.exists_eq_subsection
  -- there is only one subsection that the handle can be for
  have hmem : .subsection tag entry ∈ t.program.steps := by simp [hsteps]
  have hwired := wired_program hrun hschema _ (List.mem_filter.mp hmem).1
  obtain rfl : tag = rowsTag next "articles" := by
    cases hwired with
    | subsection _ hrows _ _ =>
        rw [hschema] at hrows
        exact congrArg Prod.fst (List.mem_singleton.mp (List.mem_of_getElem? hrows))
  obtain ⟨opening, closing, hsplit, hopening⟩ :=
    @Program.exists_split_of_steps t.program [.scalar v reflow, .scalar w reflow'] _ hsteps
  refine ⟨opening, entry, closing, hsplit, fun chunk hchunk => ?_⟩
  rw [hopening] at hchunk
  obtain rfl | hchunk := List.mem_cons.mp hchunk
  · exact ⟨v, reflow, rfl⟩
  · exact ⟨w, reflow', List.mem_singleton.mp hchunk⟩

omit [UrlReader] in
/-- The program up to the articles ends with what is carried out for them. -/
theorem untilArticles_eq {opening entry closing : Program}
    (hprogram : t.program = opening ++ .subsection (rowsTag next "articles") entry :: closing)
    (hopening : ∀ chunk ∈ opening.steps, ∃ v reflow, chunk = .scalar v reflow) :
    (ofTemplate next t).untilArticles =
      opening ++ [.subsection (rowsTag next "articles") entry] := by
  have hnone : ∀ chunk ∈ opening, (ofTemplate next t).repeatsArticles chunk = false := by
    intro chunk hchunk
    cases hstatic : chunk.isStatic with
    | true =>
        cases chunk with
        | static text => rfl
        | _ => cases hstatic
    | false =>
        obtain ⟨v, reflow, rfl⟩ := hopening chunk <|
          List.mem_filter.mpr ⟨hchunk, by rw [hstatic]; rfl⟩
        rfl
  have hindex : t.program.findIdx (ofTemplate next t).repeatsArticles = opening.length := by
    rw [hprogram, List.findIdx_append, List.findIdx_eq_length.mpr hnone, if_neg (lt_irrefl _)]
    simp [List.findIdx_cons, repeatsArticles, ofTemplate]
  change t.program.take (t.program.findIdx _ + 1) = _
  rw [hindex, hprogram, ← List.singleton_append, ← List.append_assoc]
  exact List.take_left' (by simp)

/-! ### Pages in two parts -/

/-- The source of articles fails only where a URL is rejected. -/
theorem exists_articleRows_eq (articles : List Article) :
    ∃ stream, articleRows next t articles = .ok stream := by
  induction articles with
  | nil => exact ⟨.empty, rfl⟩
  | cons a rest ih =>
      obtain ⟨stream, hstream⟩ := ih
      rw [articleRows] at hstream ⊢
      rw [List.map_cons, articleRow_eq]
      cases Escape.url a.url with
      | ok url => exact ⟨_, by rw [RowStream.ofResults, hstream]; rfl⟩
      | error e => exact ⟨_, rfl⟩

/-- A URL that is rejected ends the source of articles. -/
theorem articleRows_of_rejected {bad : Article} {e : TrustError}
    (hbad : Escape.url bad.url = .error e) (after : List Article) :
    articleRows next t (bad :: after) = .ok ⟨[], some (.ofCause (.bind (.trust "url" e)))⟩ := by
  rw [articleRows, List.map_cons, articleRow_eq, hbad]
  rfl

/-- Articles that are accepted give rows, and then the source goes on. -/
theorem exists_articleRows_append (next : ℕ) (t : Template) {earlier : List Article}
    (hearlier : ∀ a ∈ earlier, ¬ a.Rejected) :
    ∃ rows, articleRows next t earlier = .ok (.ofRows rows) ∧ rows.length = earlier.length ∧
      ∀ later stream, articleRows next t later = .ok stream →
        articleRows next t (earlier ++ later) = .ok ⟨rows ++ stream.rows, stream.failure⟩ := by
  have hproduce : ∀ a ∈ earlier, ∃ row,
      (ofTemplate next t).articleRow (articleSchema next) (commentSchema next) a = .ok row := by
    intro a ha
    rw [articleRow_eq]
    cases hurl : Escape.url a.url with
    | ok url => exact ⟨_, rfl⟩
    | error e => exact absurd ⟨e, hurl⟩ (hearlier a ha)
  obtain ⟨rows, hrows⟩ := RowStream.exists_map_eq_ok hproduce
  refine ⟨rows, ?_, ?_, fun later stream hlater => ?_⟩
  · rw [articleRows, hrows, RowStream.ofResults_map_ok]
  · simpa using (congrArg List.length hrows).symm
  · rw [articleRows] at hlater ⊢
    rw [List.map_append, hrows, RowStream.ofResults_append, hlater]
    rfl

/-- What is streamed is the rendering of what the source gives. -/
theorem renderStreamed_eq (hschema : t.schema = pageSchema next) {articles : List Article}
    {stream : RowStream ValueSet} (hstream : articleRows next t articles = .ok stream)
    (pageTitle : String) :
    (ofTemplate next t).renderStreamed pageTitle articles none =
      t.render (pageValues next pageTitle stream) none := by
  have hvalues : (ofTemplate next t).values pageTitle articles =
      .ok (pageValues next pageTitle stream) := by
    rw [values_eq hschema, hstream]
    rfl
  rw [renderStreamed, hvalues]
  rfl

/-- What is bound for articles that are accepted is the same as what is streamed. -/
theorem bind_of_articleRows (hschema : t.schema = pageSchema next) {articles : List Article}
    {rows : List ValueSet} (hrows : articleRows next t articles = .ok (.ofRows rows))
    (pageTitle : String) :
    t.bind (args pageTitle articles) = .ok (pageValues next pageTitle (.ofRows rows)) := by
  rw [bind_args hschema, hrows]
  rfl

variable {o : LayoutOptions} {n : ℕ}

/-- Nothing but an overflow ends what is carried out for articles that are accepted. -/
theorem completes_outcome (hrun : node.compile o (.newRoot next) = (.ok t, n))
    (hschema : t.schema = pageSchema next) {articles : List Article} {rows : List ValueSet}
    (hrows : articleRows next t articles = .ok (.ofRows rows)) (pageTitle : String)
    {program : Program} (hprogram : program ⊆ t.program) :
    (program.outcome (pageValues next pageTitle (.ofRows rows))).Completes := by
  have hfitted := Binding.fitted_of_bind (bind_of_articleRows hschema hrows pageTitle)
  have hwired := wired_program hrun hschema
  rw [← Program.outcome_render]
  refine (Program.completes_renderFrom 1 _ fun chunk hchunk => ?_).outcome
  exact Program.completes_renderChunk (hwired chunk (hprogram hchunk)) hschema.symm hfitted

/-- **A page is streamed in two parts**: what is in front of an article, which its title and the
earlier articles determine, and what the source gives from then on. -/
theorem exists_lead (hrun : node.compile o (.newRoot next) = (.ok t, n))
    (hschema : t.schema = pageSchema next) (pageTitle : String) {earlier later : List Article}
    (hearlier : ∀ a ∈ earlier, ¬ a.Rejected) {stream : RowStream ValueSet}
    (hlater : articleRows next t later = .ok stream) :
    ∃ lead rest : Delivery, lead.Completes ∧
      lead.accepted = (ofTemplate next t).writtenBefore pageTitle earlier ∧
      ((ofTemplate next t).renderStreamed pageTitle (earlier ++ later) none).bare =
        lead.append rest ∧
      (stream.rows = [] → ∃ closing, rest = stream.ending.append closing) := by
  obtain ⟨opening, entry, closing, hprogram, hopening⟩ := exists_program_eq hrun hschema
  obtain ⟨rows, hrows, -, happend⟩ := exists_articleRows_append next t hearlier
  have huntil := untilArticles_eq hprogram hopening
  have hsub : (ofTemplate next t).untilArticles ⊆ t.program := List.take_subset _ _
  have hget : ∀ given, (pageValues next pageTitle given).getStream
      (rowsTag next "articles") = .ok given := fun _ => ValueSet.getStream_of_parent rfl
  have hlead : (ofTemplate next t).untilArticles.outcome
      (pageValues next pageTitle (.ofRows rows)) =
      (opening.outcome (pageValues next pageTitle (.ofRows rows))).append
        (entry.outcomeRows rows) := by
    rw [huntil, Program.outcome_around (hget _)]
    exact congrArg _ (Delivery.append_nothing _)
  -- what is in front of the articles does not read them
  have hstrings := @Program.outcome_congr_values opening
    (pageValues next pageTitle ⟨rows ++ stream.rows, stream.failure⟩)
    (pageValues next pageTitle (.ofRows rows)) hopening rfl rfl
  refine ⟨(ofTemplate next t).untilArticles.outcome (pageValues next pageTitle (.ofRows rows)),
    (entry.outcomeRows stream.rows).append (stream.ending.append
      (closing.outcome (pageValues next pageTitle ⟨rows ++ stream.rows, stream.failure⟩))),
    completes_outcome hrun hschema hrows pageTitle hsub, ?_, ?_, fun hnil => ?_⟩
  · rw [writtenBefore, values_eq hschema, hrows, ← Program.outcome_render]
    rfl
  · rw [renderStreamed_eq hschema (happend later stream hlater),
      Template.bare_render (congrArg Schema.id hschema.symm), hlead]
    conv_lhs => rw [hprogram]
    rw [Program.outcome_around (hget _), hstrings, Program.outcomeRows_append,
      Delivery.append_assoc, Delivery.append_assoc]
    rfl
  · rw [hnil]
    exact ⟨_, Delivery.nothing_append _⟩

/-- Unless a counter overflows, all that is in front of an article is streamed, and then more. -/
theorem exists_rest (hrun : node.compile o (.newRoot next) = (.ok t, n))
    (hschema : t.schema = pageSchema next) {pageTitle : String} {earlier later : List Article}
    (hearlier : ∀ a ∈ earlier, ¬ a.Rejected) {stream : RowStream ValueSet}
    (hlater : articleRows next t later = .ok stream)
    (hfits : ∀ x, ((ofTemplate next t).renderStreamed pageTitle (earlier ++ later) none).stopped ≠
      some (.overflow x)) :
    ∃ rest : Delivery, ((ofTemplate next t).renderStreamed pageTitle (earlier ++ later) none).bare =
        ⟨(ofTemplate next t).writtenBefore pageTitle earlier ++ rest.accepted, rest.stopped⟩ ∧
      (stream.rows = [] → ∃ closing, rest = stream.ending.append closing) := by
  obtain ⟨lead, rest, hcompletes, hlead, hbare, hrest⟩ :=
    exists_lead hrun hschema pageTitle hearlier hlater
  have happend := Delivery.append_of_completes hcompletes fun x hover =>
    hfits x (Delivery.bare_stopped_eq_overflow_iff.mp (hbare ▸ hover))
  rw [happend, hlead] at hbare
  exact ⟨rest, hbare, hrest⟩

/-! ### The two ways agree -/

variable {pageTitle : String}

/-- Articles that are accepted are bound and streamed alike. -/
theorem renderBound_eq_renderStreamed (hschema : t.schema = pageSchema next)
    {articles : List Article} (hall : ∀ a ∈ articles, ¬ a.Rejected) (pageTitle : String) :
    (ofTemplate next t).renderBound pageTitle articles none =
      (ofTemplate next t).renderStreamed pageTitle articles none := by
  obtain ⟨rows, hrows, -⟩ := exists_articleRows_append next t hall
  have hbind := bind_of_articleRows hschema hrows pageTitle
  rw [renderStreamed_eq hschema hrows, renderBound]
  change t.generate _ none = _
  rw [Template.generate, hbind]

/-- Articles that are accepted are streamed to the end. -/
theorem renderStreamed_stopped_eq_none (hrun : node.compile o (.newRoot next) = (.ok t, n))
    (hschema : t.schema = pageSchema next) {articles : List Article}
    (hall : ∀ a ∈ articles, ¬ a.Rejected)
    (hfits : ∀ x, ((ofTemplate next t).renderStreamed pageTitle articles none).stopped ≠
      some (.overflow x)) :
    ((ofTemplate next t).renderStreamed pageTitle articles none).stopped = none := by
  obtain ⟨rows, hrows, -⟩ := exists_articleRows_append next t hall
  have hcompletes := completes_outcome hrun hschema hrows pageTitle (List.Subset.refl _)
  rw [← Template.bare_render (congrArg Schema.id hschema.symm), ← renderStreamed_eq hschema hrows]
    at hcompletes
  obtain hnone | ⟨x, hover⟩ := hcompletes
  · exact Delivery.bare_stopped_eq_none_iff.mp hnone
  · exact absurd (Delivery.bare_stopped_eq_overflow_iff.mp hover) (hfits x)

/-- Binding reports the first URL that is rejected, and nothing is written. -/
theorem renderBound_of_rejected (hschema : t.schema = pageSchema next) {before after : List Article}
    {bad : Article} {e : TrustError} (hbefore : ∀ a ∈ before, ¬ a.Rejected)
    (hbad : Escape.url bad.url = .error e) (pageTitle : String) :
    (ofTemplate next t).renderBound pageTitle (before ++ bad :: after) none =
      ⟨"", some (.failure ⟨.bind (.trust "url" e),
        [.row (before.length + 1) (before ++ bad :: after).length "articles"]⟩)⟩ := by
  obtain ⟨rows, -, hlength, happend⟩ := exists_articleRows_append next t hbefore
  have hrows := happend _ _ (articleRows_of_rejected hbad after)
  dsimp only at hrows
  rw [List.append_nil] at hrows
  have hbind : t.bind (args pageTitle (before ++ bad :: after)) =
      .error (.failure ⟨.bind (.trust "url" e),
        [.row (before.length + 1) (before ++ bad :: after).length "articles"]⟩) := by
    rw [bind_args hschema, hrows, ← hlength, Nat.add_comm rows.length]
    rfl
  rw [renderBound]
  change t.generate _ none = _
  rw [Template.generate, hbind]

/-- **What is streamed** of a page is what is in front of an article, and then more. -/
theorem exists_later (hrun : node.compile o (.newRoot next) = (.ok t, n))
    (hschema : t.schema = pageSchema next) {earlier later : List Article}
    (hearlier : ∀ a ∈ earlier, ¬ a.Rejected)
    (hfits : ∀ x, ((ofTemplate next t).renderStreamed pageTitle (earlier ++ later) none).stopped ≠
      some (.overflow x)) :
    ∃ text, ((ofTemplate next t).renderStreamed pageTitle (earlier ++ later) none).accepted =
      (ofTemplate next t).writtenBefore pageTitle earlier ++ text := by
  obtain ⟨stream, hstream⟩ := @exists_articleRows_eq next _ t later
  obtain ⟨rest, hbare, -⟩ := exists_rest hrun hschema hearlier hstream hfits
  exact ⟨rest.accepted, congrArg Delivery.accepted hbare⟩

/-- Streaming ends at the first URL that is rejected, behind what is in front of its article. -/
theorem renderStreamed_of_rejected (hrun : node.compile o (.newRoot next) = (.ok t, n))
    (hschema : t.schema = pageSchema next) {before after : List Article} {bad : Article}
    {e : TrustError} (hbefore : ∀ a ∈ before, ¬ a.Rejected)
    (hbad : Escape.url bad.url = .error e)
    (hfits : ∀ x, ((ofTemplate next t).renderStreamed pageTitle (before ++ bad :: after)
      none).stopped ≠ some (.overflow x)) :
    ((ofTemplate next t).renderStreamed pageTitle (before ++ bad :: after) none).accepted =
        (ofTemplate next t).writtenBefore pageTitle before ∧
      ((ofTemplate next t).renderStreamed pageTitle (before ++ bad :: after) none).cause? =
        some (.bind (.trust "url" e)) := by
  obtain ⟨rest, hbare, hrest⟩ :=
    exists_rest hrun hschema hbefore (articleRows_of_rejected hbad after) hfits
  -- nothing comes after the end of the source
  obtain ⟨closing, rfl⟩ := hrest rfl
  constructor
  · exact (congrArg Delivery.accepted hbare).trans String.append_empty
  · rw [← Delivery.cause?_bare, hbare]
    rfl

/-- **The two ways agree.** Unless a counter overflows, a page is compiled; and then its arguments
and its handles fill it in alike, for every title and all articles. -/
theorem compile_agree (hcompile : ∀ x, compile o next ≠ .error (.overflow x)) :
    ∃ p, compile o next = .ok p ∧ ∀ pageTitle articles,
      (∀ x, (p.renderStreamed pageTitle articles none).stopped ≠ some (.overflow x)) →
        p.Agree pageTitle articles := by
  obtain ⟨t, n, hrun, hschema, hok⟩ := exists_compile_eq hcompile
  refine ⟨_, hok, fun pageTitle articles hfits => ?_⟩
  have hfirst : ∀ before bad after e, articles = before ++ bad :: after →
      (∀ a ∈ before, ¬ a.Rejected) → Escape.url bad.url = .error e →
      ((ofTemplate next t).renderBound pageTitle articles none).accepted = "" ∧
        ((ofTemplate next t).renderBound pageTitle articles none).cause? =
          some (.bind (.trust "url" e)) ∧
        ((ofTemplate next t).renderStreamed pageTitle articles none).accepted =
          (ofTemplate next t).writtenBefore pageTitle before ∧
        ((ofTemplate next t).renderStreamed pageTitle articles none).cause? =
          some (.bind (.trust "url" e)) := by
    rintro before bad after e rfl hbefore hbad
    rw [renderBound_of_rejected hschema hbefore hbad pageTitle]
    exact ⟨rfl, rfl, renderStreamed_of_rejected hrun hschema hbefore hbad hfits⟩
  have hprefix : ∀ before after, articles = before ++ after → (∀ a ∈ before, ¬ a.Rejected) →
      ∃ later, ((ofTemplate next t).renderStreamed pageTitle articles none).accepted =
        (ofTemplate next t).writtenBefore pageTitle before ++ later := by
    rintro before after rfl hbefore
    exact exists_later hrun hschema hbefore hfits
  obtain hall | ⟨before, bad, after, hsplit, hbefore, e, hbad⟩ := Article.first_rejected articles
  · have hsame := renderBound_eq_renderStreamed hschema hall pageTitle
    have hnone := renderStreamed_stopped_eq_none hrun hschema hall hfits
    have hfails : ¬ ∃ a ∈ articles, a.Rejected := fun ⟨a, ha, hrejected⟩ => hall a ha hrejected
    exact ⟨by rw [hsame], fun _ => by rw [hsame],
      iff_of_false (fun h => h.2 hnone) hfails, hfirst, hprefix⟩
  · obtain ⟨-, hbound, -, hstreamed⟩ := hfirst before bad after e hsplit hbefore hbad
    have hmem : bad ∈ articles := by simp [hsplit]
    have hno := Delivery.stopped_ne_none hbound
    have hno' := Delivery.stopped_ne_none hstreamed
    exact ⟨iff_of_false hno hno', fun h => absurd h hno,
      iff_of_true ⟨hno, hno'⟩ ⟨bad, hmem, e, hbad⟩, hfirst, hprefix⟩

end

/-- Two articles, the second of which has a URL that is rejected. -/
def twoArticles : List Article :=
  [Article.sample 0 1, { Article.sample 1 0 with url := "javascript:alert(1)" }]

/-- Nothing is bound of these articles, but the first of them is streamed. -/
theorem compile_agree_twoArticles : ∃ p, compile .tidy 1 = .ok p ∧ p.Agree "News" twoArticles ∧
    (p.renderBound "News" twoArticles none).accepted = "" ∧
    (p.renderBound "News" twoArticles none).cause? =
      some (.bind (.trust "url" (.forbiddenScheme "javascript"))) ∧
    (p.renderStreamed "News" twoArticles none).accepted =
      p.writtenBefore "News" [Article.sample 0 1] ∧
    (p.renderStreamed "News" twoArticles none).cause? =
      some (.bind (.trust "url" (.forbiddenScheme "javascript"))) := by
  have hruns : ((compile .tidy 1).toOption.any fun p =>
      (p.renderStreamed "News" twoArticles none).cause?.isSome) = true := by decide +kernel
  have haccepted : Escape.url (Article.sample 0 1).url =
      .ok "/articles/0?ref=list&amp;page=0" := by decide +kernel
  have hbad : Escape.url "javascript:alert(1)" = .error (.forbiddenScheme "javascript") := by
    decide +kernel
  obtain ⟨p, hp, hagree⟩ := @compile_agree 1 _ .tidy fun x hover => by
    rw [hover] at hruns
    cases hruns
  have hnews : p.Agree "News" twoArticles := hagree _ _ fun x hover => by
    simp [hp, Except.toOption, Delivery.cause?, hover] at hruns
  have hbefore : ∀ a ∈ [Article.sample 0 1], ¬ a.Rejected := by
    intro a ha
    obtain rfl := List.mem_singleton.mp ha
    rintro ⟨e, he⟩
    rw [haccepted] at he
    cases he
  exact ⟨p, hp, hnews, hnews.first_rejected _ _ [] _ rfl hbefore hbad⟩

end ArticlePage

end TrustedHtml
