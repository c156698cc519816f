import TrustedHtml.Node.Builder
import TrustedHtml.Page.Article
import TrustedHtml.Template.Compile
import TrustedHtml.Template.Render

/-!
# The Page of Articles

A page that lists articles with their comments, and two ways to fill it in: by bind arguments,
which are checked before anything is written, and by rows that are produced while the page is
being written.

## Main definitions

* `ArticlePage.node` — the page as a tree.
* `ArticlePage` — the compiled page with the handles of its variables.
* `ArticlePage.renderBound`, `ArticlePage.renderStreamed` — the two ways to fill it in.
-/

namespace TrustedHtml

/-- The compiled page, with the handles for setting its values. -/
structure ArticlePage where
  template : Template
  pageTitle : Var
  articles : Tag
  title : Var
  author : Var
  url : Var
  body : Var
  commentCount : Var
  comments : Tag
  commentAuthor : Var
  commentText : Var

namespace ArticlePage

/-! ### The tree -/

/-- A text that is bound later, as a content. -/
def slot (name : String) (name_ne : name ≠ "" := by simp) : Content :=
  .node (.ofText (.named name name_ne))

/-- A text that is part of the page, as a content. -/
def fixed (text : String) : Content :=
  .node (.literal text)

/-- The part that is repeated for every comment. -/
def commentNode : Node :=
  .ofElement "p" [.attribute (.ofName "class" (.literal "comment")),
    .node (.ofElement "span" [slot "comment_author"]), fixed ": ", slot "comment_text"]

/-- Either how many comments there are, or that there are none. -/
def countNode : Node :=
  .switch [(.hasValue "comment_count" "0", some (.ofElement "p" [fixed "No comments yet."]))]
    (some (.ofElement "p" [slot "comment_count", fixed " comments:"]))

/-- The part that is repeated for every article. -/
def articleNode : Node :=
  let link := Node.ofElement "a" [.attribute (.ofName "href" (.named "url")), slot "title"]
  .ofElement "article" [.node (.ofElement "h2" [.node link]),
    .node (.ofElement "p" [.attribute (.ofName "class" (.literal "byline")), fixed "by ",
      slot "author"]),
    .node (.ofElement "p" [.node (.text (.named "body") (some 72))]),
    .node countNode, .node (.subsection "comments" commentNode)]

/-- The page. -/
def node : Node :=
  .htmlPage (.head [.node (.ofElement "title" [slot "page_title"])])
    (.ofElement "body" [.node (.ofElement "h1" [slot "page_title"]),
      .node (.subsection "articles" articleNode)]) []

/-! ### The compiled page -/

/-- The variable of the given name. -/
def findVar (s : Schema) (name : String) : Except Abort Var :=
  match s.scalar? name with
  | some v => .ok v
  | none => .error (.ofCause (.other s!"template has no variable {Text.quoted name}"))

/-- The subsection of the given name. -/
def findTag (s : Schema) (name : String) : Except Abort Tag :=
  match s.subsection? name with
  | some t => .ok t
  | none => .error (.ofCause (.other s!"template has no subsection {Text.quoted name}"))

variable [UrlReader]

/-- Compile the page, with a new schema. -/
def compile (o : LayoutOptions) (next : Nat) : Except Abort ArticlePage := do
  let template ← (node.compile o (.newRoot next)).1
  let schema := template.schema
  let articles ← findTag schema "articles"
  let article ← (schema.child articles).mapError .misuse
  let comments ← findTag article "comments"
  let comment ← (article.child comments).mapError .misuse
  return {
    template, articles, comments
    pageTitle := ← findVar schema "page_title"
    title := ← findVar article "title"
    author := ← findVar article "author"
    url := ← findVar article "url"
    body := ← findVar article "body"
    commentCount := ← findVar article "comment_count"
    commentAuthor := ← findVar comment "comment_author"
    commentText := ← findVar comment "comment_text" }

/-! ### Filling it in by arguments -/

/-- An untrusted string for the variable of the given name. -/
def untrustedArg (name text : String) : BindArg :=
  .scalar (.name name) (.untrusted text) .untrusted

/-- The arguments for a comment. -/
def commentArgs (c : Comment) : List BindArg :=
  [untrustedArg "comment_author" c.author, untrustedArg "comment_text" c.text]

/-- The arguments for an article. -/
def articleArgs (a : Article) : List BindArg :=
  [untrustedArg "title" a.title, untrustedArg "author" a.author, untrustedArg "url" a.url,
    untrustedArg "body" a.body, untrustedArg "comment_count" (toString a.comments.length),
    .rows (.name "comments") (a.comments.map commentArgs)]

/-- The arguments for a page. -/
def args (pageTitle : String) (articles : List Article) : List BindArg :=
  [untrustedArg "page_title" pageTitle, .rows (.name "articles") (articles.map articleArgs)]

/-- Write the page of the given articles, all of which are checked before. -/
def renderBound (p : ArticlePage) (pageTitle : String) (articles : List Article)
    (limit : Option Nat) : Delivery :=
  p.template.generate (args pageTitle articles) limit

/-! ### Filling it in by handles -/

/-- The values of a comment. -/
def commentRow (p : ArticlePage) (s : Schema) (c : Comment) : Except Abort ValueSet := do
  let vs ← s.valueSet.setScalar p.commentAuthor (.untrusted c.author)
  vs.setScalar p.commentText (.untrusted c.text)

/-- The values of an article, where `s` is the schema of articles and `t` that of comments. -/
def articleRow (p : ArticlePage) (s t : Schema) (a : Article) : Except Abort ValueSet := do
  let vs ← s.valueSet.setScalar p.title (.untrusted a.title)
  let vs ← vs.setScalar p.author (.untrusted a.author)
  let vs ← vs.setScalar p.url (.untrusted a.url)
  let vs ← vs.setScalar p.body (.untrusted a.body)
  let vs ← vs.setScalar p.commentCount (.untrusted (toString a.comments.length))
  let comments ← RowStream.ofResults (a.comments.map (p.commentRow t))
  (vs.setStream p.comments comments).mapError .misuse

/-- The values of a page. -/
def values (p : ArticlePage) (pageTitle : String) (articles : List Article) :
    Except Abort ValueSet := do
  let s ← (p.template.schema.child p.articles).mapError .misuse
  let t ← (s.child p.comments).mapError .misuse
  let vs ← p.template.valueSet.setScalar p.pageTitle (.untrusted pageTitle)
  let rows ← RowStream.ofResults (articles.map (p.articleRow s t))
  (vs.setStream p.articles rows).mapError .misuse

/-- Write the page of the given articles, each of which is checked when its turn has come. -/
def renderStreamed (p : ArticlePage) (pageTitle : String) (articles : List Article)
    (limit : Option Nat) : Delivery :=
  match p.values pageTitle articles with
  | .ok vs => p.template.render vs limit
  | .error e => ⟨"", some e⟩

end ArticlePage

end TrustedHtml
