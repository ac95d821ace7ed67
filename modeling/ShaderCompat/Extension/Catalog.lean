/-!
# The extension catalog

`Extension` lists the extensions the compiler knows. Each has its name, how completely it is
supported, the preambles that announce it, and the extensions that its `#extension` directive
implies. Implication is two steps deep at most, so `Extension.family` collects everything that a
directive reaches.
-/

namespace ShaderCompat

/-- How completely the compiler implements an extension. -/
inductive Support where
  | full
  /-- Declaring the extension draws a warning, once in a unit. -/
  | partly
deriving DecidableEq, Repr

/-- Which preambles announce an extension; `Scope.covers` says what each means. -/
inductive Scope where
  | never
  | es
  | desktop
  | always
  /-- Desktop from version 140, the embedded profile from version 310. -/
  | deviceGroup
  /-- Version 300 and later in any profile. -/
  | multiview
deriving DecidableEq, Repr

/-- Every level of `Support`. -/
def Support.all : List Support := [.full, .partly]

/-- The text of a level of support, as documents write it. -/
def Support.label : Support → String
  | .full => "full"
  | .partly => "partial"

/-- The level of support that has `text` for its `label`. -/
def Support.ofLabel? (text : String) : Option Support := Support.all.find? fun s => s.label == text

/-- Every `Scope`. -/
def Scope.all : List Scope := [.never, .es, .desktop, .always, .deviceGroup, .multiview]

/-- The text of a scope, as documents write it. -/
def Scope.label : Scope → String
  | .never => "never"
  | .es => "es"
  | .desktop => "desktop"
  | .always => "always"
  | .deviceGroup => "device_group"
  | .multiview => "multiview"

/-- The scope that has `text` for its `label`. -/
def Scope.ofLabel? (text : String) : Option Scope := Scope.all.find? fun s => s.label == text

/-- What the catalog says of an extension: its name, how it is supported, and which preambles
announce it. -/
structure Entry where
  name : String
  support : Support
  scope : Scope
deriving DecidableEq, Repr

/-- An extension the compiler knows. The constructors stand in catalog order, which `index` counts.
-/
inductive Extension where
  | oesTexture3D
  | oesStandardDerivatives
  | extFragDepth
  | oesEglImageExternal
  | oesEglImageExternalEssl3
  | extShaderTextureLod
  | extShadowSamplers
  | arbTextureRectangle
  | arbShadingLanguage420pack
  | arbTextureGather
  | arbGpuShader5
  | arbSeparateShaderObjects
  | arbComputeShader
  | arbTessellationShader
  | arbEnhancedLayouts
  | arbTextureCubeMapArray
  | arbShaderTextureLod
  | arbExplicitAttribLocation
  | arbShaderImageLoadStore
  | arbShaderAtomicCounters
  | arbShaderDrawParameters
  | arbShaderGroupVote
  | arbDerivativeControl
  | arbShaderTextureImageSamples
  | arbViewportArray
  | arbGpuShaderInt64
  | arbGpuShaderFp64
  | arbShaderBallot
  | arbSparseTexture2
  | arbSparseTextureClamp
  | arbShaderStencilExport
  | arbPostDepthCoverage
  | arbShaderViewportLayerArray
  | khrVulkanGlsl
  | extShaderNonConstantGlobalInitializers
  | extShaderImageLoadFormatted
  | extDeviceGroup
  | extMultiview
  | googleCppStyleLineDirective
  | googleIncludeDirective
  | amdShaderBallot
  | amdShaderTrinaryMinmax
  | amdShaderExplicitVertexParameter
  | amdGcnShader
  | amdGpuShaderHalfFloat
  | amdTextureGatherBiasLod
  | amdGpuShaderInt16
  | amdShaderImageLoadStoreLod
  | nvSampleMaskOverrideCoverage
  | nvGeometryShaderPassthrough
  | nvViewportArray2
  | nvStereoViewRendering
  | nvxMultiviewPerViewAttributes
  | ovrMultiview
  | ovrMultiview2
  | androidExtensionPackEs31a
  | khrBlendEquationAdvanced
  | oesSampleVariables
  | oesShaderImageAtomic
  | oesShaderMultisampleInterpolation
  | oesTextureStorageMultisample2dArray
  | extGeometryShader
  | extGeometryPointSize
  | extGpuShader5
  | extPrimitiveBoundingBox
  | extShaderIoBlocks
  | extTessellationShader
  | extTessellationPointSize
  | extTextureBuffer
  | extTextureCubeMapArray
  | oesGeometryShader
  | oesGeometryPointSize
  | oesGpuShader5
  | oesPrimitiveBoundingBox
  | oesShaderIoBlocks
  | oesTessellationShader
  | oesTessellationPointSize
  | oesTextureBuffer
  | oesTextureCubeMapArray
deriving DecidableEq, Repr

namespace Extension

/-- The catalog entry of an extension, one row for each constructor. -/
def entry : Extension → Entry
  | .oesTexture3D => ⟨"GL_OES_texture_3D", .full, .es⟩
  | .oesStandardDerivatives => ⟨"GL_OES_standard_derivatives", .full, .es⟩
  | .extFragDepth => ⟨"GL_EXT_frag_depth", .full, .es⟩
  | .oesEglImageExternal => ⟨"GL_OES_EGL_image_external", .full, .es⟩
  | .oesEglImageExternalEssl3 => ⟨"GL_OES_EGL_image_external_essl3", .full, .es⟩
  | .extShaderTextureLod => ⟨"GL_EXT_shader_texture_lod", .full, .es⟩
  | .extShadowSamplers => ⟨"GL_EXT_shadow_samplers", .full, .es⟩
  | .arbTextureRectangle => ⟨"GL_ARB_texture_rectangle", .full, .desktop⟩
  | .arbShadingLanguage420pack => ⟨"GL_ARB_shading_language_420pack", .full, .desktop⟩
  | .arbTextureGather => ⟨"GL_ARB_texture_gather", .full, .desktop⟩
  | .arbGpuShader5 => ⟨"GL_ARB_gpu_shader5", .partly, .desktop⟩
  | .arbSeparateShaderObjects => ⟨"GL_ARB_separate_shader_objects", .full, .desktop⟩
  | .arbComputeShader => ⟨"GL_ARB_compute_shader", .partly, .desktop⟩
  | .arbTessellationShader => ⟨"GL_ARB_tessellation_shader", .full, .desktop⟩
  | .arbEnhancedLayouts => ⟨"GL_ARB_enhanced_layouts", .full, .desktop⟩
  | .arbTextureCubeMapArray => ⟨"GL_ARB_texture_cube_map_array", .full, .desktop⟩
  | .arbShaderTextureLod => ⟨"GL_ARB_shader_texture_lod", .full, .desktop⟩
  | .arbExplicitAttribLocation => ⟨"GL_ARB_explicit_attrib_location", .full, .desktop⟩
  | .arbShaderImageLoadStore => ⟨"GL_ARB_shader_image_load_store", .full, .desktop⟩
  | .arbShaderAtomicCounters => ⟨"GL_ARB_shader_atomic_counters", .full, .desktop⟩
  | .arbShaderDrawParameters => ⟨"GL_ARB_shader_draw_parameters", .full, .desktop⟩
  | .arbShaderGroupVote => ⟨"GL_ARB_shader_group_vote", .full, .desktop⟩
  | .arbDerivativeControl => ⟨"GL_ARB_derivative_control", .full, .desktop⟩
  | .arbShaderTextureImageSamples => ⟨"GL_ARB_shader_texture_image_samples", .partly, .desktop⟩
  | .arbViewportArray => ⟨"GL_ARB_viewport_array", .full, .desktop⟩
  | .arbGpuShaderInt64 => ⟨"GL_ARB_gpu_shader_int64", .full, .desktop⟩
  | .arbGpuShaderFp64 => ⟨"GL_ARB_gpu_shader_fp64", .full, .desktop⟩
  | .arbShaderBallot => ⟨"GL_ARB_shader_ballot", .full, .desktop⟩
  | .arbSparseTexture2 => ⟨"GL_ARB_sparse_texture2", .full, .desktop⟩
  | .arbSparseTextureClamp => ⟨"GL_ARB_sparse_texture_clamp", .full, .desktop⟩
  | .arbShaderStencilExport => ⟨"GL_ARB_shader_stencil_export", .full, .desktop⟩
  | .arbPostDepthCoverage => ⟨"GL_ARB_post_depth_coverage", .full, .desktop⟩
  | .arbShaderViewportLayerArray => ⟨"GL_ARB_shader_viewport_layer_array", .full, .desktop⟩
  | .khrVulkanGlsl => ⟨"GL_KHR_vulkan_glsl", .full, .never⟩
  | .extShaderNonConstantGlobalInitializers =>
    ⟨"GL_EXT_shader_non_constant_global_initializers", .full, .always⟩
  | .extShaderImageLoadFormatted => ⟨"GL_EXT_shader_image_load_formatted", .full, .desktop⟩
  | .extDeviceGroup => ⟨"GL_EXT_device_group", .full, .deviceGroup⟩
  | .extMultiview => ⟨"GL_EXT_multiview", .full, .deviceGroup⟩
  | .googleCppStyleLineDirective => ⟨"GL_GOOGLE_cpp_style_line_directive", .full, .always⟩
  | .googleIncludeDirective => ⟨"GL_GOOGLE_include_directive", .full, .always⟩
  | .amdShaderBallot => ⟨"GL_AMD_shader_ballot", .full, .desktop⟩
  | .amdShaderTrinaryMinmax => ⟨"GL_AMD_shader_trinary_minmax", .full, .desktop⟩
  | .amdShaderExplicitVertexParameter =>
    ⟨"GL_AMD_shader_explicit_vertex_parameter", .full, .desktop⟩
  | .amdGcnShader => ⟨"GL_AMD_gcn_shader", .full, .desktop⟩
  | .amdGpuShaderHalfFloat => ⟨"GL_AMD_gpu_shader_half_float", .full, .desktop⟩
  | .amdTextureGatherBiasLod => ⟨"GL_AMD_texture_gather_bias_lod", .full, .desktop⟩
  | .amdGpuShaderInt16 => ⟨"GL_AMD_gpu_shader_int16", .full, .desktop⟩
  | .amdShaderImageLoadStoreLod => ⟨"GL_AMD_shader_image_load_store_lod", .full, .desktop⟩
  | .nvSampleMaskOverrideCoverage => ⟨"GL_NV_sample_mask_override_coverage", .full, .desktop⟩
  | .nvGeometryShaderPassthrough => ⟨"GL_NV_geometry_shader_passthrough", .full, .desktop⟩
  | .nvViewportArray2 => ⟨"GL_NV_viewport_array2", .full, .desktop⟩
  | .nvStereoViewRendering => ⟨"GL_NV_stereo_view_rendering", .full, .desktop⟩
  | .nvxMultiviewPerViewAttributes => ⟨"GL_NVX_multiview_per_view_attributes", .full, .desktop⟩
  | .ovrMultiview => ⟨"GL_OVR_multiview", .full, .multiview⟩
  | .ovrMultiview2 => ⟨"GL_OVR_multiview2", .full, .multiview⟩
  | .androidExtensionPackEs31a => ⟨"GL_ANDROID_extension_pack_es31a", .full, .es⟩
  | .khrBlendEquationAdvanced => ⟨"GL_KHR_blend_equation_advanced", .full, .es⟩
  | .oesSampleVariables => ⟨"GL_OES_sample_variables", .full, .es⟩
  | .oesShaderImageAtomic => ⟨"GL_OES_shader_image_atomic", .full, .es⟩
  | .oesShaderMultisampleInterpolation => ⟨"GL_OES_shader_multisample_interpolation", .full, .es⟩
  | .oesTextureStorageMultisample2dArray =>
    ⟨"GL_OES_texture_storage_multisample_2d_array", .full, .es⟩
  | .extGeometryShader => ⟨"GL_EXT_geometry_shader", .full, .es⟩
  | .extGeometryPointSize => ⟨"GL_EXT_geometry_point_size", .full, .es⟩
  | .extGpuShader5 => ⟨"GL_EXT_gpu_shader5", .full, .es⟩
  | .extPrimitiveBoundingBox => ⟨"GL_EXT_primitive_bounding_box", .full, .es⟩
  | .extShaderIoBlocks => ⟨"GL_EXT_shader_io_blocks", .full, .es⟩
  | .extTessellationShader => ⟨"GL_EXT_tessellation_shader", .full, .es⟩
  | .extTessellationPointSize => ⟨"GL_EXT_tessellation_point_size", .full, .es⟩
  | .extTextureBuffer => ⟨"GL_EXT_texture_buffer", .full, .es⟩
  | .extTextureCubeMapArray => ⟨"GL_EXT_texture_cube_map_array", .full, .es⟩
  | .oesGeometryShader => ⟨"GL_OES_geometry_shader", .full, .es⟩
  | .oesGeometryPointSize => ⟨"GL_OES_geometry_point_size", .full, .es⟩
  | .oesGpuShader5 => ⟨"GL_OES_gpu_shader5", .full, .es⟩
  | .oesPrimitiveBoundingBox => ⟨"GL_OES_primitive_bounding_box", .full, .es⟩
  | .oesShaderIoBlocks => ⟨"GL_OES_shader_io_blocks", .full, .es⟩
  | .oesTessellationShader => ⟨"GL_OES_tessellation_shader", .full, .es⟩
  | .oesTessellationPointSize => ⟨"GL_OES_tessellation_point_size", .full, .es⟩
  | .oesTextureBuffer => ⟨"GL_OES_texture_buffer", .full, .es⟩
  | .oesTextureCubeMapArray => ⟨"GL_OES_texture_cube_map_array", .full, .es⟩

/-- Every known extension, in catalog order, so that `all[e.index]? = some e`. -/
def all : List Extension :=
  [.oesTexture3D, .oesStandardDerivatives, .extFragDepth, .oesEglImageExternal,
    .oesEglImageExternalEssl3, .extShaderTextureLod, .extShadowSamplers, .arbTextureRectangle,
    .arbShadingLanguage420pack, .arbTextureGather, .arbGpuShader5, .arbSeparateShaderObjects,
    .arbComputeShader, .arbTessellationShader, .arbEnhancedLayouts, .arbTextureCubeMapArray,
    .arbShaderTextureLod, .arbExplicitAttribLocation, .arbShaderImageLoadStore,
    .arbShaderAtomicCounters, .arbShaderDrawParameters, .arbShaderGroupVote,
    .arbDerivativeControl, .arbShaderTextureImageSamples, .arbViewportArray, .arbGpuShaderInt64,
    .arbGpuShaderFp64, .arbShaderBallot, .arbSparseTexture2, .arbSparseTextureClamp,
    .arbShaderStencilExport, .arbPostDepthCoverage, .arbShaderViewportLayerArray, .khrVulkanGlsl,
    .extShaderNonConstantGlobalInitializers, .extShaderImageLoadFormatted, .extDeviceGroup,
    .extMultiview, .googleCppStyleLineDirective, .googleIncludeDirective, .amdShaderBallot,
    .amdShaderTrinaryMinmax, .amdShaderExplicitVertexParameter, .amdGcnShader,
    .amdGpuShaderHalfFloat, .amdTextureGatherBiasLod, .amdGpuShaderInt16,
    .amdShaderImageLoadStoreLod, .nvSampleMaskOverrideCoverage, .nvGeometryShaderPassthrough,
    .nvViewportArray2, .nvStereoViewRendering, .nvxMultiviewPerViewAttributes, .ovrMultiview,
    .ovrMultiview2, .androidExtensionPackEs31a, .khrBlendEquationAdvanced, .oesSampleVariables,
    .oesShaderImageAtomic, .oesShaderMultisampleInterpolation,
    .oesTextureStorageMultisample2dArray, .extGeometryShader, .extGeometryPointSize,
    .extGpuShader5, .extPrimitiveBoundingBox, .extShaderIoBlocks, .extTessellationShader,
    .extTessellationPointSize, .extTextureBuffer, .extTextureCubeMapArray, .oesGeometryShader,
    .oesGeometryPointSize, .oesGpuShader5, .oesPrimitiveBoundingBox, .oesShaderIoBlocks,
    .oesTessellationShader, .oesTessellationPointSize, .oesTextureBuffer, .oesTextureCubeMapArray]

/-- The name a shader writes, from the `entry`. -/
def name (e : Extension) : String := e.entry.name

/-- The place of an extension in the catalog, and the `index` of its identity. -/
def index (e : Extension) : Nat := e.ctorIdx

/-- The extension at a place of the catalog: the inverse of `index`. -/
def ofIndex? (n : Nat) : Option Extension := all[n]?

/-- The known extension of a name: the inverse of `name`. -/
def ofName? (text : String) : Option Extension := all.find? fun e => e.name == text

/-- The extensions whose behavior follows a directive for this one. Those that imply any are the
umbrella extensions, and an umbrella may imply another. -/
def implied : Extension → List Extension
  | .androidExtensionPackEs31a =>
    [.khrBlendEquationAdvanced, .oesSampleVariables, .oesShaderImageAtomic,
      .oesShaderMultisampleInterpolation, .oesTextureStorageMultisample2dArray,
      .extGeometryShader, .extGpuShader5, .extPrimitiveBoundingBox, .extShaderIoBlocks,
      .extTessellationShader, .extTextureBuffer, .extTextureCubeMapArray]
  | .extGeometryShader | .extTessellationShader => [.extShaderIoBlocks]
  | .oesGeometryShader | .oesTessellationShader => [.oesShaderIoBlocks]
  | .googleIncludeDirective => [.googleCppStyleLineDirective]
  | _ => []

/-- An extension and everything its directive reaches, in the order it is reached; an extension
reached along two ways stands there twice, and its behavior is set twice. -/
def family (e : Extension) : List Extension :=
  e :: e.implied.flatMap fun m => m :: m.implied

/-- Two steps of implication are all there are: a family is the extension followed by the families
of those it has in `implied`. -/
theorem family_eq (e : Extension) : e.family = e :: e.implied.flatMap family := by
  cases e <;> rfl

/-- The catalog lists each extension at its `index`. -/
theorem ofIndex?_index (e : Extension) : ofIndex? e.index = some e := by
  cases e <;> rfl

end Extension

end ShaderCompat
