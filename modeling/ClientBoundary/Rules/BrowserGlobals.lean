import ClientBoundary.Text.Lowercase

/-!
# Browser globals

The names that a browser declares and a server does not.

- `browserGlobals`: the names, in increasing order;
- `deriveBrowserGlobals`: such a list from what the two environments declare.
-/

namespace ClientBoundary
namespace Rules

/-- Names that both environments have, whatever the declarations of the server say. -/
def runtimeOverlap : List String :=
  ["setInterval", "setTimeout", "clearTimeout", "clearInterval", "queueMicrotask",
    "structuredClone", "atob", "btoa", "fetch"]

def browserGlobals : List String :=
  ["ANGLE_instanced_arrays", "ActiveXObject", "AnalyserNode", "Animation", "AnimationEffect",
   "AnimationEvent", "AnimationPlaybackEvent", "AnimationTimeline", "Attr", "Audio",
   "AudioBuffer", "AudioBufferSourceNode", "AudioContext", "AudioDestinationNode",
   "AudioListener", "AudioNode", "AudioParam", "AudioParamMap", "AudioProcessingEvent",
   "AudioScheduledSourceNode", "AudioWorklet", "AudioWorkletNode",
   "AuthenticatorAssertionResponse", "AuthenticatorAttestationResponse",
   "AuthenticatorResponse", "BarProp", "BaseAudioContext", "BeforeUnloadEvent",
   "BiquadFilterNode", "BlobEvent", "CDATASection", "CSSAnimation", "CSSConditionRule",
   "CSSContainerRule", "CSSCounterStyleRule", "CSSFontFaceRule", "CSSGroupingRule",
   "CSSImportRule", "CSSKeyframeRule", "CSSKeyframesRule", "CSSLayerBlockRule", "CSSMediaRule",
   "CSSNamespaceRule", "CSSPageRule", "CSSRule", "CSSRuleList", "CSSStyleDeclaration",
   "CSSStyleRule", "CSSStyleSheet", "CSSSupportsRule", "CSSTransition", "Cache", "CacheStorage",
   "CanvasCaptureMediaStreamTrack", "CanvasGradient", "CanvasPattern",
   "CanvasRenderingContext2D", "CaretPosition", "ChannelMergerNode", "ChannelSplitterNode",
   "CharacterData", "Clipboard", "ClipboardEvent", "ClipboardItem", "CloseEvent", "Comment",
   "CompositionEvent", "ConstantSourceNode", "ConvolverNode", "CountQueuingStrategy",
   "Credential", "CredentialsContainer", "CustomElementRegistry", "DOMImplementation",
   "DOMMatrix", "DOMMatrixReadOnly", "DOMParser", "DOMPoint", "DOMPointReadOnly", "DOMQuad",
   "DOMRect", "DOMRectList", "DOMRectReadOnly", "DOMStringList", "DOMStringMap", "DOMTokenList",
   "DataTransfer", "DataTransferItem", "DataTransferItemList", "DelayNode", "DeviceMotionEvent",
   "DeviceOrientationEvent", "Document", "DocumentFragment", "DocumentTimeline", "DocumentType",
   "DragEvent", "DynamicsCompressorNode", "Element", "ElementInternals", "ErrorEvent",
   "EventSource", "External", "FileList", "FileReader", "FileSystem",
   "FileSystemDirectoryEntry", "FileSystemDirectoryHandle", "FileSystemDirectoryReader",
   "FileSystemEntry", "FileSystemFileEntry", "FileSystemFileHandle", "FileSystemHandle",
   "FocusEvent", "FontFace", "FontFaceSet", "FontFaceSetLoadEvent", "FormDataEvent", "GainNode",
   "Gamepad", "GamepadButton", "GamepadEvent", "GamepadHapticActuator", "Geolocation",
   "GeolocationCoordinates", "GeolocationPosition", "GeolocationPositionError",
   "HTMLAllCollection", "HTMLAnchorElement", "HTMLAreaElement", "HTMLAudioElement",
   "HTMLBRElement", "HTMLBaseElement", "HTMLBodyElement", "HTMLButtonElement",
   "HTMLCanvasElement", "HTMLCollection", "HTMLDListElement", "HTMLDataElement",
   "HTMLDataListElement", "HTMLDetailsElement", "HTMLDialogElement", "HTMLDivElement",
   "HTMLDocument", "HTMLElement", "HTMLEmbedElement", "HTMLFieldSetElement",
   "HTMLFormControlsCollection", "HTMLFormElement", "HTMLHRElement", "HTMLHeadElement",
   "HTMLHeadingElement", "HTMLHtmlElement", "HTMLIFrameElement", "HTMLImageElement",
   "HTMLInputElement", "HTMLLIElement", "HTMLLabelElement", "HTMLLegendElement",
   "HTMLLinkElement", "HTMLMapElement", "HTMLMediaElement", "HTMLMenuElement",
   "HTMLMetaElement", "HTMLMeterElement", "HTMLModElement", "HTMLOListElement",
   "HTMLObjectElement", "HTMLOptGroupElement", "HTMLOptionElement", "HTMLOptionsCollection",
   "HTMLOutputElement", "HTMLParagraphElement", "HTMLPictureElement", "HTMLPreElement",
   "HTMLProgressElement", "HTMLQuoteElement", "HTMLScriptElement", "HTMLSelectElement",
   "HTMLSlotElement", "HTMLSourceElement", "HTMLSpanElement", "HTMLStyleElement",
   "HTMLTableCaptionElement", "HTMLTableCellElement", "HTMLTableColElement", "HTMLTableElement",
   "HTMLTableRowElement", "HTMLTableSectionElement", "HTMLTemplateElement",
   "HTMLTextAreaElement", "HTMLTimeElement", "HTMLTitleElement", "HTMLTrackElement",
   "HTMLUListElement", "HTMLUnknownElement", "HTMLVideoElement", "HashChangeEvent", "History",
   "IDBCursor", "IDBCursorWithValue", "IDBDatabase", "IDBFactory", "IDBIndex", "IDBKeyRange",
   "IDBObjectStore", "IDBOpenDBRequest", "IDBRequest", "IDBTransaction",
   "IDBVersionChangeEvent", "IIRFilterNode", "IdleDeadline", "Image", "ImageBitmap",
   "ImageBitmapRenderingContext", "ImageData", "InputDeviceInfo", "InputEvent",
   "IntersectionObserver", "IntersectionObserverEntry", "KeyboardEvent", "KeyframeEffect",
   "Location", "Lock", "LockManager", "MathMLElement", "MediaCapabilities", "MediaDeviceInfo",
   "MediaDevices", "MediaElementAudioSourceNode", "MediaEncryptedEvent", "MediaError",
   "MediaKeyMessageEvent", "MediaKeySession", "MediaKeyStatusMap", "MediaKeySystemAccess",
   "MediaKeys", "MediaList", "MediaMetadata", "MediaQueryList", "MediaQueryListEvent",
   "MediaRecorder", "MediaSession", "MediaSource", "MediaStream",
   "MediaStreamAudioDestinationNode", "MediaStreamAudioSourceNode", "MediaStreamTrack",
   "MediaStreamTrackEvent", "MimeType", "MimeTypeArray", "MouseEvent", "MutationObserver",
   "MutationRecord", "NamedNodeMap", "NavigationPreloadManager", "Navigator", "Node",
   "NodeFilter", "NodeIterator", "NodeList", "Notification", "OfflineAudioCompletionEvent",
   "OfflineAudioContext", "OffscreenCanvas", "OffscreenCanvasRenderingContext2D", "Option",
   "OscillatorNode", "OverconstrainedError", "PageTransitionEvent", "PannerNode", "Path2D",
   "PaymentMethodChangeEvent", "PaymentRequest", "PaymentRequestUpdateEvent", "PaymentResponse",
   "PeriodicWave", "PermissionStatus", "Permissions", "PictureInPictureEvent",
   "PictureInPictureWindow", "Plugin", "PluginArray", "PointerEvent", "PopStateEvent",
   "ProcessingInstruction", "ProgressEvent", "PublicKeyCredential", "PushManager",
   "PushSubscription", "PushSubscriptionOptions", "RTCCertificate", "RTCDTMFSender",
   "RTCDTMFToneChangeEvent", "RTCDataChannel", "RTCDataChannelEvent", "RTCDtlsTransport",
   "RTCEncodedAudioFrame", "RTCEncodedVideoFrame", "RTCError", "RTCErrorEvent",
   "RTCIceCandidate", "RTCIceTransport", "RTCPeerConnection", "RTCPeerConnectionIceErrorEvent",
   "RTCPeerConnectionIceEvent", "RTCRtpReceiver", "RTCRtpSender", "RTCRtpTransceiver",
   "RTCSctpTransport", "RTCSessionDescription", "RTCStatsReport", "RTCTrackEvent",
   "RadioNodeList", "Range", "RemotePlayback", "ReportingObserver", "ResizeObserver",
   "ResizeObserverEntry", "ResizeObserverSize", "SVGAElement", "SVGAngle", "SVGAnimateElement",
   "SVGAnimateMotionElement", "SVGAnimateTransformElement", "SVGAnimatedAngle",
   "SVGAnimatedBoolean", "SVGAnimatedEnumeration", "SVGAnimatedInteger", "SVGAnimatedLength",
   "SVGAnimatedLengthList", "SVGAnimatedNumber", "SVGAnimatedNumberList",
   "SVGAnimatedPreserveAspectRatio", "SVGAnimatedRect", "SVGAnimatedString",
   "SVGAnimatedTransformList", "SVGAnimationElement", "SVGCircleElement", "SVGClipPathElement",
   "SVGComponentTransferFunctionElement", "SVGDefsElement", "SVGDescElement", "SVGElement",
   "SVGEllipseElement", "SVGFEBlendElement", "SVGFEColorMatrixElement",
   "SVGFEGaussianBlurElement", "SVGFEImageElement", "SVGFEMergeElement", "SVGFEOffsetElement",
   "SVGFETurbulenceElement", "SVGFilterElement", "SVGForeignObjectElement", "SVGGElement",
   "SVGGeometryElement", "SVGGradientElement", "SVGGraphicsElement", "SVGImageElement",
   "SVGLength", "SVGLengthList", "SVGLineElement", "SVGLinearGradientElement",
   "SVGMarkerElement", "SVGMaskElement", "SVGMatrix", "SVGMetadataElement", "SVGNumber",
   "SVGNumberList", "SVGPathElement", "SVGPatternElement", "SVGPoint", "SVGPointList",
   "SVGPolygonElement", "SVGPolylineElement", "SVGPreserveAspectRatio",
   "SVGRadialGradientElement", "SVGRect", "SVGRectElement", "SVGSVGElement", "SVGScriptElement",
   "SVGSetElement", "SVGStopElement", "SVGStringList", "SVGStyleElement", "SVGSwitchElement",
   "SVGSymbolElement", "SVGTSpanElement", "SVGTextContentElement", "SVGTextElement",
   "SVGTextPathElement", "SVGTextPositioningElement", "SVGTitleElement", "SVGTransform",
   "SVGTransformList", "SVGUnitTypes", "SVGUseElement", "SVGViewElement", "Screen",
   "ScreenOrientation", "ScriptProcessorNode", "SecurityPolicyViolationEvent", "Selection",
   "ServiceWorker", "ServiceWorkerContainer", "ServiceWorkerRegistration", "ShadowRoot",
   "SharedWorker", "SourceBuffer", "SourceBufferList", "SpeechSynthesis",
   "SpeechSynthesisErrorEvent", "SpeechSynthesisEvent", "SpeechSynthesisUtterance",
   "SpeechSynthesisVoice", "StaticRange", "StereoPannerNode", "Storage", "StorageEvent",
   "StorageManager", "StyleSheet", "StyleSheetList", "SubmitEvent", "Text", "TextMetrics",
   "TextTrack", "TextTrackCue", "TextTrackCueList", "TextTrackList", "TimeRanges", "Touch",
   "TouchEvent", "TouchList", "TrackEvent", "TransitionEvent", "TreeWalker", "UIEvent",
   "VTTCue", "VTTRegion", "ValidityState", "VideoColorSpace", "VideoPlaybackQuality",
   "VisualViewport", "WakeLock", "WakeLockSentinel", "WaveShaperNode", "WebGL2RenderingContext",
   "WebGLActiveInfo", "WebGLBuffer", "WebGLContextEvent", "WebGLFramebuffer", "WebGLProgram",
   "WebGLQuery", "WebGLRenderbuffer", "WebGLRenderingContext", "WebGLSampler", "WebGLShader",
   "WebGLShaderPrecisionFormat", "WebGLSync", "WebGLTexture", "WebGLTransformFeedback",
   "WebGLUniformLocation", "WebGLVertexArrayObject", "WheelEvent", "Window", "Worklet",
   "XMLDocument", "XMLHttpRequest", "XMLHttpRequestEventTarget", "XMLHttpRequestUpload",
   "XMLSerializer", "XPathEvaluator", "XPathExpression", "XPathResult", "XSLTProcessor",
   "addEventListener", "alert", "blur", "caches", "cancelAnimationFrame", "cancelIdleCallback",
   "captureEvents", "clientInformation", "closed", "confirm", "createImageBitmap",
   "crossOriginIsolated", "customElements", "devicePixelRatio", "dispatchEvent", "document",
   "external", "focus", "frameElement", "frames", "getComputedStyle", "getSelection", "history",
   "indexedDB", "innerHeight", "innerWidth", "isSecureContext", "length", "localStorage",
   "location", "locationbar", "matchMedia", "menubar", "moveBy", "moveTo", "name", "navigator",
   "onabort", "onafterprint", "onanimationend", "onanimationiteration", "onanimationstart",
   "onbeforeprint", "onbeforeunload", "onblur", "oncanplay", "onchange", "onclick",
   "oncontextmenu", "ondblclick", "ondevicemotion", "ondeviceorientation",
   "ondeviceorientationabsolute", "ondrag", "ondragend", "ondragenter", "ondragleave",
   "ondragover", "ondragstart", "ondrop", "onerror", "onfocus", "ongamepadconnected",
   "ongamepaddisconnected", "onhashchange", "oninput", "onkeydown", "onkeypress", "onkeyup",
   "onlanguagechange", "onload", "onmessage", "onmessageerror", "onmousedown", "onmouseenter",
   "onmouseleave", "onmousemove", "onmouseout", "onmouseover", "onmouseup", "onoffline",
   "ononline", "onorientationchange", "onpagehide", "onpageshow", "onpointerdown",
   "onpointermove", "onpointerup", "onpopstate", "onrejectionhandled", "onresize", "onscroll",
   "onstorage", "onsubmit", "ontouchend", "ontouchmove", "ontouchstart", "onunhandledrejection",
   "onunload", "onwheel", "opener", "orientation", "origin", "outerHeight", "outerWidth",
   "pageXOffset", "pageYOffset", "parent", "personalbar", "postMessage", "print", "prompt",
   "releaseEvents", "removeEventListener", "reportError", "requestAnimationFrame",
   "requestIdleCallback", "resizeBy", "resizeTo", "screen", "screenLeft", "screenTop",
   "screenX", "screenY", "scroll", "scrollBy", "scrollTo", "scrollX", "scrollY", "scrollbars",
   "self", "sessionStorage", "speechSynthesis", "status", "statusbar", "stop", "toString",
   "toolbar", "top", "visualViewport", "webkitURL", "window"]

def isBrowserGlobal (name : String) : Bool :=
  browserGlobals.contains name

/-! ## Deriving the list -/

/-- A list without the names that stand right before the same name. -/
def dropRepeats : List String → List String
  | n :: m :: more => if n = m then dropRepeats (m :: more) else n :: dropRepeats (m :: more)
  | names => names

/-- The names of a list in increasing order, each of them once. -/
def sortNames (names : List String) : List String :=
  dropRepeats (names.mergeSort fun a b => a ≤ b)

/-- The names of the browser that the server does not declare in any letter case. -/
def deriveBrowserGlobals (browser runtime : List String) : List String :=
  let known := (runtime ++ runtimeOverlap).map Text.lowercase
  sortNames (browser.filter fun name => !known.contains (Text.lowercase name))

end Rules
end ClientBoundary
