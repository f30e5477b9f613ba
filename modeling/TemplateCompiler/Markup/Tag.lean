import TemplateCompiler.Text.Search

/-! What is known about the tags of HTML and SVG: which are native, which never have content, how
their text is read, and which end tags may be left out. -/

namespace TemplateCompiler.Tag

def htmlTags : List String :=
  ["html", "body", "base", "head", "link", "meta", "style", "title", "address", "article",
   "aside", "footer", "header", "h1", "h2", "h3", "h4", "h5", "h6", "nav", "section", "div", "dd",
   "dl", "dt", "figcaption", "figure", "picture", "hr", "img", "li", "main", "ol", "p", "pre",
   "ul", "a", "b", "abbr", "bdi", "bdo", "br", "cite", "code", "data", "dfn", "em", "i", "kbd",
   "mark", "q", "rp", "rt", "ruby", "s", "samp", "small", "span", "strong", "sub", "sup", "time",
   "u", "var", "wbr", "area", "audio", "map", "track", "video", "embed", "object", "param",
   "source", "canvas", "script", "noscript", "del", "ins", "caption", "col", "colgroup", "table",
   "thead", "tbody", "td", "th", "tr", "button", "datalist", "fieldset", "form", "input", "label",
   "legend", "meter", "optgroup", "option", "output", "progress", "select", "textarea", "details",
   "dialog", "menu", "summary", "template", "blockquote", "iframe", "tfoot", "slot", "xmp",
   "noembed", "noframes"]

def svgTags : List String :=
  ["svg", "animate", "animateMotion", "animateTransform", "circle", "clipPath", "color-profile",
   "defs", "desc", "discard", "ellipse", "feBlend", "feColorMatrix", "feComponentTransfer",
   "feComposite", "feConvolveMatrix", "feDiffuseLighting", "feDisplacementMap", "feDistanceLight",
   "feDropShadow", "feFlood", "feFuncA", "feFuncB", "feFuncG", "feFuncR", "feGaussianBlur",
   "feImage", "feMerge", "feMergeNode", "feMorphology", "feOffset", "fePointLight",
   "feSpecularLighting", "feSpotLight", "feTile", "feTurbulence", "filter", "foreignObject", "g",
   "hatch", "hatchpath", "image", "line", "linearGradient", "marker", "mask", "mesh",
   "meshgradient", "meshpatch", "meshrow", "metadata", "mpath", "path", "pattern", "polygon",
   "polyline", "radialGradient", "rect", "set", "solidcolor", "stop", "switch", "symbol", "text",
   "textPath", "tspan", "unknown", "use", "view"]

def isNative (tag : String) : Bool :=
  htmlTags.contains tag || svgTags.contains tag

def voidTags : List String :=
  ["area", "base", "br", "col", "embed", "hr", "img", "input", "link", "meta", "param", "source",
   "track", "wbr"]

def isVoid (tag : String) : Bool :=
  voidTags.contains tag

/-- A tag whose text keeps its blanks. -/
def isPreformatted (tag : String) : Bool :=
  Text.sameIgnoringCase tag "pre"

/-- How the text inside an element is read. -/
inductive TextMode where
  /-- Elements, interpolations and character references. -/
  | data
  /-- Interpolations and character references, up to the end tag of the element. -/
  | rcData
  /-- Plain text up to the end tag of the element. -/
  | rawText
deriving DecidableEq, Inhabited, Repr

def textMode (tag : String) : TextMode :=
  if ["style", "script", "iframe", "noscript", "xmp", "noembed", "noframes"].contains tag then
    .rawText
  else if ["textarea", "title"].contains tag then .rcData
  else .data

def paragraphClosers : List String :=
  ["address", "article", "aside", "blockquote", "details", "dialog", "div", "dl", "fieldset",
   "figcaption", "figure", "footer", "form", "h1", "h2", "h3", "h4", "h5", "h6", "header", "hr",
   "main", "menu", "nav", "ol", "p", "pre", "section", "table", "ul"]

def closers (tag : String) : List String :=
  match tag with
  | "p" => paragraphClosers
  | "li" => ["li"]
  | "dt" | "dd" => ["dt", "dd"]
  | "option" => ["option", "optgroup"]
  | "optgroup" => ["optgroup"]
  | "tr" => ["tr", "tbody", "tfoot"]
  | "td" | "th" => ["td", "th", "tr", "tbody", "tfoot"]
  | "thead" | "tbody" => ["tbody", "tfoot"]
  | "rp" | "rt" => ["rp", "rt"]
  | _ => []

def closesImplicitly (tag incoming : String) : Bool :=
  (closers tag).contains incoming

def hasOptionalEnd (tag : String) : Bool :=
  ["p", "li", "dt", "dd", "option", "optgroup", "tr", "td", "th", "thead", "tbody", "tfoot", "rp",
   "rt"].contains tag

/-- The components that the runtime brings along. -/
inductive CoreComponent where
  | teleport
  | suspense
  | keepAlive
  | baseTransition
deriving DecidableEq, Inhabited, Repr

def core? (tag : String) : Option CoreComponent :=
  match tag with
  | "Teleport" | "teleport" => some .teleport
  | "Suspense" | "suspense" => some .suspense
  | "KeepAlive" | "keep-alive" => some .keepAlive
  | "BaseTransition" | "base-transition" => some .baseTransition
  | _ => none

def isDynamicComponent (tag : String) : Bool :=
  tag == "component" || tag == "Component"

end TemplateCompiler.Tag
